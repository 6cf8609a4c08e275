import Mathlib.Data.List.Induction
import UnusedDeps.Toolchain.Config

/-!
# Mappings with distinct keys

Pairs with distinct keys are the mapping that results from setting each of them,
and every value is found under its key. Variables set on top of others hide those
with their names and no others.
-/

namespace UnusedDeps

namespace Mapping

variable {κ ν : Type} [DecidableEq κ]

theorem set_of_notMem {m : Mapping κ ν} {k : κ} (h : k ∉ m.map (·.1)) (v : ν) :
    set k v m = m ++ [(k, v)] := by
  induction m with
  | nil => rfl
  | cons e rest ih =>
    rw [List.map_cons, List.mem_cons, not_or] at h
    rw [set, if_neg (Ne.symm h.1), ih h.2, List.cons_append]

theorem mem_keys_set {m : Mapping κ ν} {k j : κ} {v : ν} :
    j ∈ (set k v m).map (·.1) ↔ j = k ∨ j ∈ m.map (·.1) := by
  rw [keys_set]
  split
  · rename_i there
    exact ⟨Or.inr, fun h => h.elim (fun h => h ▸ there) id⟩
  · rw [List.mem_append, List.mem_singleton, or_comm]

theorem ofPairs_of_nodup {pairs : List (κ × ν)} (distinct : (pairs.map (·.1)).Nodup) :
    ofPairs pairs = pairs := by
  unfold ofPairs
  induction pairs using List.reverseRecOn with
  | nil => rfl
  | append_singleton pairs e ih =>
    rw [List.map_append, List.map_singleton, List.nodup_append] at distinct
    obtain ⟨before, -, apart⟩ := distinct
    have fresh : e.1 ∉ pairs.map (·.1) := fun h => apart _ h _ List.mem_cons_self rfl
    rw [List.foldl_append, ih before, List.foldl_cons, List.foldl_nil, set_of_notMem fresh]

theorem get?_of_mem {m : Mapping κ ν} (distinct : (m.map (·.1)).Nodup) {k : κ} {v : ν}
    (h : (k, v) ∈ m) : get? m k = some v := by
  induction m with
  | nil => cases h
  | cons e rest ih =>
    rw [List.map_cons, List.nodup_cons] at distinct
    rw [get?, List.find?_cons]
    rcases List.mem_cons.1 h with rfl | h
    · simp
    · have hne : e.1 ≠ k := fun he => distinct.1 (he ▸ List.mem_map_of_mem h)
      simp only [hne, decide_false]
      exact ih distinct.2 h

theorem mem_of_mem_set {k : κ} {v : ν} {m : Mapping κ ν} {e : κ × ν} (h : e ∈ set k v m) :
    e ∈ m ∨ e = (k, v) := by
  induction m with
  | nil => exact .inr (List.mem_singleton.1 h)
  | cons f rest ih =>
    unfold set at h
    split at h
    · exact (List.mem_cons.1 h).symm.imp_left (List.mem_cons_of_mem f)
    · rcases List.mem_cons.1 h with rfl | h
      · exact .inl List.mem_cons_self
      · exact (ih h).imp_left (List.mem_cons_of_mem f)

theorem mem_of_mem_ofPairs {pairs : List (κ × ν)} {e : κ × ν} (h : e ∈ ofPairs pairs) :
    e ∈ pairs := by
  unfold ofPairs at h
  induction pairs using List.reverseRecOn with
  | nil => cases h
  | append_singleton pairs f ih =>
    rw [List.foldl_append, List.foldl_cons, List.foldl_nil] at h
    rw [List.mem_append, List.mem_singleton]
    exact (mem_of_mem_set h).imp_left ih

theorem mem_of_get? {m : Mapping κ ν} {k : κ} {v : ν} (h : get? m k = some v) : (k, v) ∈ m := by
  obtain ⟨e, he, rfl⟩ := Option.map_eq_some_iff.1 h
  have key : e.1 = k := by simpa using List.find?_some he
  exact key ▸ List.mem_of_find?_eq_some he

theorem isSome_get?_iff {m : Mapping κ ν} {k : κ} : (get? m k).isSome ↔ k ∈ m.map (·.1) := by
  rw [get?, Option.isSome_map, List.find?_isSome, List.mem_map]
  simp only [decide_eq_true_eq]

theorem exists_get?_iff {m : Mapping κ ν} {k : κ} :
    (∃ v, get? m k = some v) ↔ k ∈ m.map (·.1) := by
  rw [← isSome_get?_iff, Option.isSome_iff_exists]

theorem mem_keys_of_get? {m : Mapping κ ν} {k : κ} {v : ν} (h : get? m k = some v) :
    k ∈ m.map (·.1) :=
  exists_get?_iff.1 ⟨v, h⟩

theorem get?_eq_none_iff {m : Mapping κ ν} {k : κ} : get? m k = none ↔ k ∉ m.map (·.1) := by
  rw [← isSome_get?_iff, Option.not_isSome_iff_eq_none]

end Mapping

/-! ### Variables -/

namespace Environment

theorem get?_overlay_of_notMem (base : Environment) {changes : Environment} {name : String}
    (h : name ∉ changes.map (·.1)) :
    Mapping.get? (overlay base changes) name = Mapping.get? base name := by
  unfold overlay
  induction changes generalizing base with
  | nil => rfl
  | cons v changes ih =>
    rw [List.map_cons, List.mem_cons, not_or] at h
    rw [List.foldl_cons, ih _ h.2, Mapping.get?_set, if_neg (Ne.symm h.1)]

theorem get?_overlay_of_mem (base : Environment) {changes : Environment}
    (distinct : (changes.map (·.1)).Nodup) {name value : String} (h : (name, value) ∈ changes) :
    Mapping.get? (overlay base changes) name = some value := by
  induction changes generalizing base with
  | nil => cases h
  | cons v changes ih =>
    rw [List.map_cons, List.nodup_cons] at distinct
    have step : overlay base (v :: changes) = overlay (Mapping.set v.1 v.2 base) changes := rfl
    rw [step]
    rcases List.mem_cons.1 h with rfl | h
    · rw [get?_overlay_of_notMem _ distinct.1, Mapping.get?_set, if_pos rfl]
    · exact ih _ distinct.2 h

end Environment

end UnusedDeps
