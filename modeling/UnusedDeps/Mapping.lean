/-!
# Mappings that keep their order

A mapping is a list of keys and values in which a key that is set again keeps
its place. Reading a mapping built with `set` gives the value set last.
-/

namespace UnusedDeps

/-- Keys with values, in the order in which the keys first came. -/
abbrev Mapping (κ ν : Type) := List (κ × ν)

namespace Mapping

variable {κ ν : Type} [DecidableEq κ]

/-- The value of a key. -/
def get? (m : Mapping κ ν) (k : κ) : Option ν := (List.find? (fun e => e.1 = k) m).map (·.2)

/-- The mapping with a key set to a value. -/
def set (k : κ) (v : ν) : Mapping κ ν → Mapping κ ν
  | [] => [(k, v)]
  | e :: rest => if e.1 = k then (k, v) :: rest else e :: set k v rest

/-- The mapping that results from setting each pair in turn. -/
def ofPairs (pairs : List (κ × ν)) : Mapping κ ν :=
  pairs.foldl (fun m e => set e.1 e.2 m) []

theorem get?_set (m : Mapping κ ν) (k j : κ) (v : ν) :
    get? (set k v m) j = if k = j then some v else get? m j := by
  induction m with
  | nil =>
    simp only [set, get?, List.find?_cons, List.find?_nil]
    by_cases h : k = j <;> simp [h]
  | cons e rest ih =>
    unfold set
    by_cases he : e.1 = k
    · rw [if_pos he]
      by_cases h : k = j
      · simp [get?, h]
      · simp [get?, h, he]
    · rw [if_neg he]
      by_cases hj : e.1 = j
      · have hk : ¬ k = j := fun h => he (hj.trans h.symm)
        simp [get?, hj, hk]
      · have hrest := ih
        simp only [get?] at hrest
        simp only [get?, List.find?_cons, hj, decide_false]
        exact hrest

theorem keys_set (m : Mapping κ ν) (k : κ) (v : ν) :
    (set k v m).map (·.1) = if k ∈ m.map (·.1) then m.map (·.1) else m.map (·.1) ++ [k] := by
  induction m with
  | nil => simp [set]
  | cons e rest ih =>
    unfold set
    by_cases he : e.1 = k
    · simp [he]
    · rw [if_neg he, List.map_cons, ih]
      have hk : ¬ k = e.1 := fun h => he h.symm
      by_cases hm : k ∈ rest.map (·.1)
      · simp [hm]
      · have hm' : ¬ k ∈ (e :: rest).map (·.1) := by
          rw [List.map_cons, List.mem_cons]
          exact fun h => h.elim hk hm
        rw [if_neg hm, if_neg hm', List.map_cons, List.cons_append]

end Mapping

end UnusedDeps
