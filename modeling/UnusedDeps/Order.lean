/-!
# Sorted lists

Reports show sets in increasing order. `sortUnique` turns a list into the strictly
increasing list with the same elements, and `sortByKey` sorts by a key and keeps
the order of elements with equal keys.
-/

namespace UnusedDeps

/-- The strictly increasing list with one more element. -/
def insertUnique {α : Type} [LT α] [DecidableLT α] [DecidableEq α] (x : α) : List α → List α
  | [] => [x]
  | y :: ys => if x < y then x :: y :: ys else if x = y then y :: ys else y :: insertUnique x ys

/-- The strictly increasing list of the elements of a list. -/
def sortUnique {α : Type} [LT α] [DecidableLT α] [DecidableEq α] (xs : List α) : List α :=
  xs.foldr insertUnique []

theorem mem_insertUnique {α : Type} [LT α] [DecidableLT α] [DecidableEq α] (x a : α)
    (ys : List α) : a ∈ insertUnique x ys ↔ a = x ∨ a ∈ ys := by
  induction ys with
  | nil => simp [insertUnique]
  | cons y ys ih =>
    unfold insertUnique
    split
    · simp
    · split
      · rename_i h
        subst h
        simp
      · simp only [List.mem_cons, ih]
        exact or_left_comm

theorem mem_sortUnique {α : Type} [LT α] [DecidableLT α] [DecidableEq α] (a : α) (xs : List α) :
    a ∈ sortUnique xs ↔ a ∈ xs := by
  induction xs with
  | nil => simp [sortUnique]
  | cons x xs ih =>
    have h : sortUnique (x :: xs) = insertUnique x (sortUnique xs) := rfl
    rw [h, mem_insertUnique, ih, List.mem_cons]

/-- The list sorted by a key; elements with equal keys keep their order. -/
def sortByKey {α κ : Type} [LT κ] [DecidableLT κ] (key : α → κ) (xs : List α) : List α :=
  xs.mergeSort fun a b => !decide (key b < key a)

theorem mem_sortByKey {α κ : Type} [LT κ] [DecidableLT κ] (key : α → κ) (xs : List α) (a : α) :
    a ∈ sortByKey key xs ↔ a ∈ xs :=
  (List.mergeSort_perm xs _).mem_iff

end UnusedDeps
