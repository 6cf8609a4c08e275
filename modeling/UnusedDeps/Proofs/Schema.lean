import UnusedDeps.Proofs.Steps
import UnusedDeps.Schema.Read

/-!
# What a reader of typed documents accepts

A reader gives a value exactly when every part of it does: a list when each of its
elements is read, a table when each of its known fields is and no other name
stands in it. All faults of a document are collected, so a document is refused
exactly when one of its parts is. Main statements: `listOr_eq_ok`,
`optional_eq_ok` and `onlyNames_eq_ok`.
-/

namespace UnusedDeps

variable {α β : Type}

namespace Checked

theorem map_eq_ok {c : Checked α} {f : α → β} {b : β} :
    c.map f = .ok b ↔ ∃ a, c = .ok a ∧ f a = b := by
  cases c <;> simp [Except.map]

theorem under_eq_ok {s : Step} {c : Checked α} {a : α} : c.under s = .ok a ↔ c = .ok a :=
  mapError_eq_ok

theorem both_eq_ok {c : Checked α} {d : Checked β} {p : α × β} :
    both c d = .ok p ↔ c = .ok p.1 ∧ d = .ok p.2 := by
  cases c <;> cases d <;> simp [both, Prod.ext_iff]

theorem map_fst_both_eq_ok {c : Checked α} {d : Checked β} {a : α} :
    (both c d).map (·.1) = .ok a ↔ c = .ok a ∧ ∃ b, d = .ok b := by
  simp only [map_eq_ok, both_eq_ok, Prod.exists]
  constructor
  · rintro ⟨a, b, ⟨hc, hd⟩, rfl⟩
    exact ⟨hc, b, hd⟩
  · rintro ⟨hc, b, hd⟩
    exact ⟨a, b, ⟨hc, hd⟩, rfl⟩

theorem apply_eq_ok {f : Checked (α → β)} {c : Checked α} {b : β} :
    f.apply c = .ok b ↔ ∃ g a, f = .ok g ∧ c = .ok a ∧ g a = b := by
  rw [apply, map_eq_ok]
  simp only [both_eq_ok, Prod.exists, and_assoc]

end Checked

namespace Read

/-! ### Texts and lists -/

theorem text_eq_ok {v : Value} {s : String} : text v = .ok s ↔ v = .text s := by
  cases v <;> simp [text, Checked.fault]

theorem itemsFrom_eq_ok {read : Value → Checked α} {i : Nat} {items : List Value} {as : List α} :
    itemsFrom read i items = .ok as ↔ List.Forall₂ (fun v a => read v = .ok a) items as := by
  induction items generalizing i as with
  | nil =>
    rw [itemsFrom, List.forall₂_nil_left_iff, Except.ok.injEq]
    exact eq_comm
  | cons v items ih =>
    rw [itemsFrom, Checked.map_eq_ok, List.forall₂_cons_left_iff]
    simp only [Checked.both_eq_ok, Checked.under_eq_ok, ih, Prod.exists]
    constructor
    · rintro ⟨a, rest, ⟨hv, hrest⟩, rfl⟩
      exact ⟨a, rest, hv, hrest, rfl⟩
    · rintro ⟨a, rest, hv, hrest, rfl⟩
      exact ⟨a, rest, ⟨hv, hrest⟩, rfl⟩

theorem listOr_eq_ok {kind : FaultKind} {read : Value → Checked α} {v : Value} {as : List α} :
    listOr kind read v = .ok as ↔
      ∃ items, v = .list items ∧ List.Forall₂ (fun v a => read v = .ok a) items as := by
  cases v with
  | list items => simp only [listOr, itemsFrom_eq_ok, Value.list.injEq, exists_eq_left']
  | _ => simp [listOr, Checked.fault]

theorem exists_listOr_iff {kind : FaultKind} {read : Value → Checked α} {v : Value} :
    (∃ as, listOr kind read v = .ok as) ↔
      ∃ items, v = .list items ∧ ∀ item ∈ items, ∃ a, read item = .ok a := by
  simp only [listOr_eq_ok]
  constructor
  · rintro ⟨as, items, rfl, h⟩
    refine ⟨items, rfl, fun item hitem => ?_⟩
    obtain ⟨a, -, ha⟩ := exists_right_of_forall₂ h hitem
    exact ⟨a, ha⟩
  · rintro ⟨items, rfl, h⟩
    obtain ⟨as, has⟩ := forall₂_of_forall_exists h
    exact ⟨as, items, rfl, has⟩

theorem missingAt_ne_ok (i : Nat) (a : α) : pair.missingAt i ≠ Except.ok a := by
  rw [pair.missingAt, Ne, Checked.under_eq_ok]
  exact nofun

theorem exists_pair_iff {read : Value → Checked α} {v : Value} :
    (∃ p, pair read v = .ok p) ↔
      ∃ x y, v = .list [x, y] ∧ (∃ a, read x = .ok a) ∧ ∃ b, read y = .ok b := by
  match v with
  | .list [] | .list [_] => simp [pair, Checked.both_eq_ok, missingAt_ne_ok]
  | .list [x, y] => simp [pair, Checked.both_eq_ok, Checked.under_eq_ok, and_assoc]
  | .list (_ :: _ :: _ :: _) => simp [pair, Checked.fault]
  | .null | .bool _ | .int _ | .float _ | .text _ | .moment _ _ | .table _ =>
    simp [pair, Checked.fault]

theorem exists_nullable_iff {read : Value → Checked α} {v : Value} :
    (∃ a, nullable read v = .ok a) ↔ v = .null ∨ ∃ a, read v = .ok a := by
  cases v with
  | null => simp [nullable]
  | _ => simp [nullable, Checked.map_eq_ok]

theorem forall₂_text_iff {items : List Value} {texts : List String} :
    List.Forall₂ (fun v s => text v = .ok s) items texts ↔ items = texts.map .text := by
  simp only [text_eq_ok]
  rw [← List.forall₂_eq_eq_eq, List.forall₂_map_right_iff]

/-! ### Tables -/

theorem table_eq_ok {read : Fields → Checked α} {v : Value} {a : α} :
    table read v = .ok a ↔ ∃ fields, v = .table fields ∧ read fields = .ok a := by
  cases v with
  | table fields => simp only [table, Value.table.injEq, exists_eq_left']
  | _ => simp [table, Checked.fault]

theorem required_eq_ok {fields : Fields} {name : String} {read : Value → Checked α} {a : α} :
    required fields name read = .ok a ↔
      ∃ v, Mapping.get? fields name = some v ∧ read v = .ok a := by
  rw [required, Checked.under_eq_ok]
  cases Mapping.get? fields name with
  | none => simp [Checked.fault]
  | some v => simp

theorem optional_eq_ok {fields : Fields} {name : String} {default : α}
    {read : Value → Checked α} {a : α} :
    optional fields name default read = .ok a ↔
      (Mapping.get? fields name = none ∧ default = a) ∨
        ∃ v, Mapping.get? fields name = some v ∧ read v = .ok a := by
  rw [optional]
  cases Mapping.get? fields name with
  | none => simp
  | some v => simp [Checked.under_eq_ok]

theorem exists_optional_iff {fields : Fields} {name : String} {default : α}
    {read : Value → Checked α} :
    (∃ a, optional fields name default read = .ok a) ↔
      ∀ v, Mapping.get? fields name = some v → ∃ a, read v = .ok a := by
  simp only [optional_eq_ok]
  cases Mapping.get? fields name with
  | none => simp
  | some v => simp

theorem optional_table_eq_ok {fields : Fields} {name : String} {default : α}
    {read : Fields → Checked α} {a : α} :
    optional fields name default (table read) = .ok a ↔
      (Mapping.get? fields name = none ∧ default = a) ∨
        ∃ inner, Mapping.get? fields name = some (.table inner) ∧ read inner = .ok a := by
  rw [optional_eq_ok]
  simp only [table_eq_ok]
  constructor
  · rintro (absent | ⟨_, given, inner, rfl, h⟩)
    · exact Or.inl absent
    · exact Or.inr ⟨inner, given, h⟩
  · rintro (absent | ⟨inner, given, h⟩)
    · exact Or.inl absent
    · exact Or.inr ⟨_, given, inner, rfl, h⟩

theorem exists_table_iff {read : Fields → Checked α} {v : Value} :
    (∃ a, table read v = .ok a) ↔ ∃ inner, v = .table inner ∧ ∃ a, read inner = .ok a := by
  simp only [table_eq_ok]
  exact ⟨fun ⟨a, inner, hv, h⟩ => ⟨inner, hv, a, h⟩, fun ⟨inner, hv, a, h⟩ => ⟨a, inner, hv, h⟩⟩

theorem exists_optional_table_iff {fields : Fields} {name : String} {default : α}
    {read : Fields → Checked α} :
    (∃ a, optional fields name default (table read) = .ok a) ↔
      ∀ v, Mapping.get? fields name = some v →
        ∃ inner, v = .table inner ∧ ∃ a, read inner = .ok a := by
  simp only [exists_optional_iff, exists_table_iff]

theorem onlyNames_eq_ok {fields : Fields} {known : List String} {u : Unit} :
    onlyNames fields known = .ok u ↔ ∀ name ∈ fields.map (·.1), name ∈ known := by
  have unknown : fields.filter (fun f => !known.contains f.1) = [] ↔
      ∀ name ∈ fields.map (·.1), name ∈ known := by
    simp only [List.filter_eq_nil_iff, List.forall_mem_map, Bool.not_eq_true',
      Bool.not_eq_false, List.contains_iff_mem]
  rw [onlyNames, ← unknown]
  split
  · rename_i h
    exact ⟨fun _ => h, fun _ => rfl⟩
  · rename_i h
    exact ⟨nofun, fun none => absurd none h⟩

theorem named_eq_ok {fields : Fields} {c : Checked α} {a : α} :
    named fields c = .ok a ↔
      (∀ name ∈ fields.map (·.1), Text.hasHalfPair name = false) ∧ c = .ok a := by
  have whole : (fields.any fun f => Text.hasHalfPair f.1) = false ↔
      ∀ name ∈ fields.map (·.1), Text.hasHalfPair name = false := by
    simp only [List.any_eq_false, List.forall_mem_map, Bool.not_eq_true]
  rw [named, ← whole]
  cases fields.any fun f => Text.hasHalfPair f.1 with
  | true => simp [Checked.fault]
  | false => simp

end Read

end UnusedDeps
