import UnusedDeps.Text.Order
import UnusedDeps.Value.Basic

/-!
# Values as keys

A value that names something is found again by what it is, not by how it is
written: numbers and truth values are the same key when they are equal as
numbers. Lists and tables are no keys. Keys are compared within their kind only,
so a list of keys can be sorted unless two of them cannot be compared.
-/

namespace UnusedDeps

/-- What a value is when it is looked up. -/
inductive Key where
  | null
  | number (n : Int)
  /-- A number with a fraction, an infinity or not-a-number. -/
  | fraction (x : Binary64)
  | text (s : String)
  deriving DecidableEq, Repr

def Value.key? : Value → Option Key
  | .null => some .null
  | .bool b => some (.number (if b then 1 else 0))
  | .int n => some (.number n)
  | .float x =>
    match x.integer? with
    | some n => some (.number n)
    | none => some (.fraction x)
  | .text s => some (.text s)
  | .moment _ written => some (.text written)
  | .list _ => none
  | .table _ => none

/-- The keys of several values, when each has one. -/
def keysOf? (vs : List Value) : Option (List Key) := vs.mapM Value.key?

theorem key?_text (s : String) : (Value.text s).key? = some (.text s) := rfl

def Value.sameKey (v w : Value) : Bool := v.key?.isSome && v.key? = w.key?

namespace Key

/-! ### Order -/

/-- An integer as a binary number, however large. -/
def wide (n : Int) : Binary64 := .finite (n < 0) n.natAbs 0

/-- The order of two keys, where they have one. -/
def compare? : Key → Key → Option Ordering
  | .null, .null => some .eq
  | .text s, .text t => some (Text.order s t)
  | .number n, .number m => some (compare n m)
  | .number n, .fraction x => some ((wide n).order x)
  | .fraction x, .number n => some (x.order (wide n))
  | .fraction x, .fraction y => some (x.order y)
  | _, _ => none

/-- The order of two lists of keys: that of the first keys in which they differ. -/
def compareAll? : List Key → List Key → Option Ordering
  | [], [] => some .eq
  | [], _ :: _ => some .lt
  | _ :: _, [] => some .gt
  | a :: as, b :: bs => if a = b then compareAll? as bs else compare? a b

theorem compareAll?_self (ks : List Key) : compareAll? ks ks = some .eq := by
  induction ks with
  | nil => rfl
  | cons k ks ih => simp [compareAll?, ih]

/-- Whether two keys are of one kind; all numbers are. -/
def isLike : Key → Key → Bool
  | .null, .null | .text _, .text _ => true
  | .number _, .number _ | .number _, .fraction _ => true
  | .fraction _, .number _ | .fraction _, .fraction _ => true
  | _, _ => false

theorem isSome_compare? (a b : Key) : (compare? a b).isSome = isLike a b := by
  cases a <;> cases b <;> rfl

/-- Whether two lists of keys have an order: the first keys in which they differ are of one kind. -/
def haveOrder : List Key → List Key → Bool
  | a :: as, b :: bs => if a = b then haveOrder as bs else isLike a b
  | _, _ => true

theorem isSome_compareAll? (as bs : List Key) :
    (compareAll? as bs).isSome = haveOrder as bs := by
  fun_induction haveOrder as bs with
  | case1 a as bs ih => simpa [compareAll?] using ih
  | case2 a as b bs h => simp [compareAll?, h, isSome_compare?]
  | case3 as bs h =>
    match as, bs with
    | [], [] | [], _ :: _ | _ :: _, [] => rfl
    | a :: as, b :: bs => exact absurd rfl (h a as b bs rfl)

def comparable : List (List Key) → Bool
  | [] => true
  | ks :: rest => rest.all (haveOrder ks) && comparable rest

end Key

/-- The elements with their keys, when each has them. -/
def withKeys? {α : Type} (keys : α → Option (List Key)) (xs : List α) :
    Option (List (List Key × α)) :=
  xs.mapM fun x => (keys x).map fun ks => (ks, x)

theorem map_snd_of_withKeys? {α : Type} {keys : α → Option (List Key)} {xs : List α}
    {keyed : List (List Key × α)} (h : withKeys? keys xs = some keyed) :
    keyed.map (·.2) = xs := by
  induction xs generalizing keyed with
  | nil => simp_all [withKeys?]
  | cons x xs ih =>
    rw [withKeys?, List.mapM_cons] at h
    obtain ⟨p, hp, h⟩ := Option.bind_eq_some_iff.1 h
    obtain ⟨rest, hr, h⟩ := Option.bind_eq_some_iff.1 h
    obtain ⟨ks, _, rfl⟩ := Option.map_eq_some_iff.1 hp
    cases h
    rw [List.map_cons, ih hr]

/-- The list sorted by keys, where each element has them and any two can be compared; elements with
the same keys keep their order. -/
def sortByKeys? {α : Type} (keys : α → Option (List Key)) (xs : List α) : Option (List α) := do
  let keyed ← withKeys? keys xs
  if Key.comparable (keyed.map (·.1)) then
    some ((keyed.mergeSort fun a b => Key.compareAll? a.1 b.1 != some .gt).map (·.2))
  else none

theorem mem_sortByKeys? {α : Type} {keys : α → Option (List Key)} {xs ys : List α}
    (h : sortByKeys? keys xs = some ys) (a : α) : a ∈ ys ↔ a ∈ xs := by
  obtain ⟨keyed, hk, h⟩ := Option.bind_eq_some_iff.1 h
  split at h
  · rw [← map_snd_of_withKeys? hk, ← Option.some.inj h, List.mem_map, List.mem_map]
    simp only [(List.mergeSort_perm keyed _).mem_iff]
  · cases h

def sortValues? (vs : List Value) : Option (List Value) :=
  sortByKeys? (fun v => keysOf? [v]) vs

/-! ### Sets and pairs -/

/-- The values with one more, unless the same key is there. -/
def insertKey (vs : List Value) (v : Value) : List Value :=
  if vs.any v.sameKey then vs else vs ++ [v]

/-- The values without those that are the same key as one before. -/
def distinctKeys (vs : List Value) : List Value := vs.foldl insertKey []

/-- The pairs with a key set to `a`; a key that is there already keeps its place. -/
def setByKey {α : Type} (k : Value) (a : α) : List (Value × α) → List (Value × α)
  | [] => [(k, a)]
  | e :: rest => if e.1.sameKey k then (e.1, a) :: rest else e :: setByKey k a rest

/-- What stands beside a key. -/
def getByKey? {α : Type} (pairs : List (Value × α)) (k : Value) : Option α :=
  (pairs.find? (·.1.sameKey k)).map (·.2)

theorem mem_insertKey_texts (vs : List String) (s t : String) :
    Value.text t ∈ insertKey (vs.map .text) (.text s) ↔ t ∈ vs ∨ t = s := by
  unfold insertKey
  split
  · rename_i h
    obtain ⟨v, hv, h⟩ := List.any_eq_true.1 h
    obtain ⟨u, hu, rfl⟩ := List.mem_map.1 hv
    have hs : s = u := by simpa [Value.sameKey, key?_text] using h
    subst hs
    simp only [List.mem_map, Value.text.injEq, exists_eq_right]
    exact ⟨Or.inl, fun h => h.elim id fun h => h ▸ hu⟩
  · simp

end UnusedDeps
