import UnusedDeps.Proofs.Json.RoundTrip
import UnusedDeps.Proofs.Package.Text
import UnusedDeps.Report.Json

/-!
# Outcomes read back from the report for programs

The report for programs is one line of JSON. Reading it gives the outcome back: whether
it succeeded, the note, and every listed package with its manifest and its lists, in the
order of the identities. Halves of surrogate pairs are written as they are, so no text is
changed on the way. Main statement: `Report.isRecovered_json`.
-/

namespace UnusedDeps

/-! ### Outcomes of texts -/

/-- Whether the manifest path and the names of an entry are texts. -/
structure UnusedEntry.IsCoded (e : UnusedEntry) : Prop where
  manifestPath : e.manifestPath.IsCoded
  names : ∀ k, ∀ v ∈ e.names k, v.IsCoded

/-- Whether the parts of an outcome are what they are for: a truth value, packages with distinct
identities, and a text or nothing for the note. -/
structure Outcome.IsTyped (o : Outcome) : Prop where
  success : ∃ b, o.success = .bool b
  note : o.note = .null ∨ o.note.IsCoded
  ids : ∀ e ∈ o.unused, e.1.IsCoded
  distinct : o.unused.Pairwise fun e f => e.1.same f.1 = false
  entries : ∀ e ∈ o.unused, e.2.IsCoded

/-! ### Decoding -/

/-- The list under a name of a table. -/
def Fields.listAt? (fields : Fields) (name : String) : Option (List Value) :=
  match Mapping.get? fields name with
  | some (.list items) => some items
  | _ => none

/-- The entry that a table gives. -/
def UnusedEntry.ofValue? : Value → Option UnusedEntry
  | .table fields => do
    return {
      manifestPath := ← Mapping.get? fields "manifest_path"
      normal := ← Fields.listAt? fields "normal"
      development := ← Fields.listAt? fields "development"
      build := ← Fields.listAt? fields "build" }
  | _ => none

/-- The entries that the fields of a table give, whose names are the texts of identities. -/
def UnusedEntries.ofFields? (fields : Fields) : Option UnusedEntries :=
  fields.mapM fun f => do return (← PackageId.ofText? f.1, ← UnusedEntry.ofValue? f.2)

/-- The outcome that a value gives. -/
def Outcome.ofValue? : Value → Option Outcome
  | .table fields => do
    match ← Mapping.get? fields "unused_deps" with
    | .table entries =>
      return {
        success := ← Mapping.get? fields "success"
        unused := ← UnusedEntries.ofFields? entries
        note := ← Mapping.get? fields "note" }
    | _ => none
  | _ => none

theorem UnusedEntry.ofValue?_toValue (e : UnusedEntry) : ofValue? e.toValue = some e := rfl

theorem UnusedEntries.ofFields?_texts {es : UnusedEntries} (ids : ∀ e ∈ es, e.1.IsCoded)
    (spaceless : ∀ e ∈ es, e.1.IsSpaceless) :
    ofFields? (es.map fun e => (e.1.text, e.2.toValue)) = some es := by
  unfold ofFields?
  induction es with
  | nil => rfl
  | cons e es ih =>
    rw [List.forall_mem_cons] at ids spaceless
    rw [List.map_cons, List.mapM_cons, ih ids.2 spaceless.2,
      PackageId.ofText?_text ids.1.isTextual spaceless.1, UnusedEntry.ofValue?_toValue]
    rfl

/-! ### Writing -/

theorem Value.IsCoded.isKept {v : Value} (h : v.IsCoded) (depth : Nat) :
    v.IsKept .unicode depth := by
  obtain ⟨s, rfl, coded⟩ := h
  exact .text depth (Json.keeps_unicode coded)

theorem isKept_namedTable {depth : Nat} {fields : List (String × Value)} (names : List String)
    (named : fields.map (·.1) = names) (distinct : names.Nodup)
    (shown : ∀ n ∈ names, Text.IsShown n) (h : ∀ v ∈ fields.map (·.2), v.IsKept .unicode depth) :
    (Value.table fields).IsKept .unicode (depth + 1) := by
  subst named
  refine .table distinct (fun f hf => ?_) fun f hf => h f.2 (List.mem_map_of_mem hf)
  exact Json.keeps_of_isFaithful (shown f.1 (List.mem_map_of_mem hf)).isFaithful .unicode

theorem UnusedEntry.IsCoded.isKept_toValue {e : UnusedEntry} (h : e.IsCoded) :
    e.toValue.IsKept .unicode 2 := by
  have list (k : DependencyKind) : (Value.list (e.names k)).IsKept .unicode 1 :=
    .list fun v hv => (h.names k v hv).isKept 0
  refine isKept_namedTable ["manifest_path", "normal", "development", "build"] rfl (by decide)
    (by decide) ?_
  simp only [List.map_cons, List.map_nil, List.forall_mem_cons]
  exact ⟨h.manifestPath.isKept 1, list .normal, list .development, list .build,
    List.forall_mem_nil _⟩

namespace Outcome

/-- The table of an outcome with its packages in a given order. -/
def tableOf (o : Outcome) (entries : UnusedEntries) : Value :=
  .table [("success", o.success),
    ("unused_deps", .table (entries.map fun e => (e.1.text, e.2.toValue))), ("note", o.note)]

theorem ofValue?_tableOf (o : Outcome) {entries : UnusedEntries}
    (ids : ∀ e ∈ entries, e.1.IsCoded) (spaceless : ∀ e ∈ entries, e.1.IsSpaceless) :
    ofValue? (o.tableOf entries) = some ⟨o.success, entries, o.note⟩ := by
  have unused := UnusedEntries.ofFields?_texts ids spaceless
  simp [ofValue?, tableOf, Mapping.get?, unused]

theorem IsTyped.exists_sorted {o : Outcome} (typed : o.IsTyped) :
    ∃ entries, o.unused.sorted = .ok entries ∧ entries.Perm o.unused ∧
      entries.Pairwise fun e f => e.1.Before f.1 := by
  have keyed : ∀ e ∈ o.unused, HasCodedKeys (fun e : PackageId × UnusedEntry => e.1.keys?) e :=
    fun e he => (typed.ids e he).hasCodedKeys
  have apart : o.unused.Pairwise fun e f => e.1.keys? ≠ f.1.keys? :=
    typed.distinct.imp_of_mem fun he _ h => keys?_ne (typed.ids _ he) h
  obtain ⟨entries, sorted, perm, increasing⟩ := exists_sortByKeys? keyed apart
  exact ⟨entries, orWrongType_eq_ok.2 sorted, perm, increasing⟩

theorem isKept_tableOf {o : Outcome} (typed : o.IsTyped) {entries : UnusedEntries}
    (ids : ∀ e ∈ entries, e.1.IsCoded) (coded : ∀ e ∈ entries, e.2.IsCoded)
    (distinct : (entries.map fun e => e.1.text).Nodup) :
    (o.tableOf entries).IsKept .unicode 4 := by
  obtain ⟨b, hb⟩ := typed.success
  have unused : (Value.table (entries.map fun e => (e.1.text, e.2.toValue))).IsKept .unicode 3 := by
    refine .table (by rwa [List.map_map]) ?_ ?_
    · exact List.forall_mem_map.2 fun e he => Json.keeps_unicode (ids e he).text
    · exact List.forall_mem_map.2 fun e he => (coded e he).isKept_toValue
  have note : o.note.IsKept .unicode 3 := by
    rcases typed.note with null | text
    · exact null ▸ .null 3
    · exact text.isKept 3
  refine isKept_namedTable ["success", "unused_deps", "note"] rfl (by decide) (by decide) ?_
  simp only [List.map_cons, List.map_nil, List.forall_mem_cons]
  exact ⟨hb ▸ .bool 3 b, unused, note, List.forall_mem_nil _⟩

end Outcome

namespace Report

/-- Whether a text is one line of JSON that gives back all of an outcome, its packages under the
texts of their identities and in the order of these. -/
structure IsRecovered (o : Outcome) (text : String) : Prop where
  oneLine : ∃ line, text = line ++ "\n" ∧ '\n' ∉ line.toList
  decoded : ∃ fields entries, Json.document text = .ok (.table fields) ∧
    Mapping.get? fields "unused_deps" =
      some (.table (entries.map fun e => (e.1.text, e.2.toValue))) ∧
    Outcome.ofValue? (.table fields) = some ⟨o.success, entries, o.note⟩ ∧
    entries.Perm o.unused ∧ entries.Pairwise (fun e f => e.1.Before f.1) ∧
    (entries.map fun e => e.1.text).Nodup

/-- The report for programs gives back every outcome whose packages have names and versions without
spaces. -/
theorem isRecovered_json {o : Outcome} (typed : o.IsTyped)
    (spaceless : ∀ e ∈ o.unused, e.1.IsSpaceless) :
    ∃ text, json o = .ok text ∧ IsRecovered o text := by
  obtain ⟨entries, sorted, perm, increasing⟩ := typed.exists_sorted
  have ids : ∀ e ∈ entries, e.1.IsCoded := fun e he => typed.ids e (perm.mem_iff.1 he)
  have spaceless : ∀ e ∈ entries, e.1.IsSpaceless := fun e he => spaceless e (perm.mem_iff.1 he)
  have coded : ∀ e ∈ entries, e.2.IsCoded := fun e he => typed.entries e (perm.mem_iff.1 he)
  have distinct : (entries.map fun e => e.1.text).Nodup := by
    rw [List.Nodup, List.pairwise_map]
    refine increasing.imp_of_mem fun {e f} he hf before same => ?_
    have heq := PackageId.eq_of_text_eq (ids e he).isTextual (ids f hf).isTextual
      (spaceless e he) (spaceless f hf) same
    exact not_precedes_self f.1 (heq ▸ before)
  have value : o.toValue = .ok (o.tableOf entries) := by
    refine bind_eq_ok.2 ⟨entries, sorted, ?_⟩
    rw [Mapping.ofPairs_of_nodup (by rwa [List.map_map])]
    rfl
  have kept := Outcome.isKept_tableOf typed ids coded distinct
  refine ⟨_, bind_eq_ok.2 ⟨_, value, rfl⟩, ⟨_, rfl, Json.lineFeed_notMem_print kept⟩, _, entries,
    Json.document_print_append kept (by decide) (by decide), ?_,
    Outcome.ofValue?_tableOf o ids spaceless, perm, increasing, distinct⟩
  simp [Mapping.get?]

/-- An outcome whose texts hold what JSON escapes, and what it leaves as it is. -/
def quotedOutcome : Outcome where
  success := .bool false
  unused := [
    (⟨.text "mid", .text "1.0.0", .text "path+file:///ws/my mid"⟩,
      ⟨.text "/ws/my mid/Cargo.toml", [.text "a\"b\\c"], [.text "line\nfeed"], []⟩),
    (⟨.text "app", .text "1.0.0", .text "path+file:///ws/app"⟩,
      ⟨.text "/ws/app/Cargo.toml", [], [], [.text "größe", .text "\x1f"]⟩)]
  note := .text "Note: é\n"

theorem isTyped_quotedOutcome : quotedOutcome.IsTyped := by
  have coded {s : String} := @Value.isCoded_of_plain s
  refine ⟨⟨false, rfl⟩, .inr (coded (by decide)), ?_, ?_, ?_⟩
  · simp only [quotedOutcome, List.forall_mem_cons]
    exact ⟨⟨coded (by decide), coded (by decide), coded (by decide)⟩,
      ⟨coded (by decide), coded (by decide), coded (by decide)⟩, List.forall_mem_nil _⟩
  · simp only [quotedOutcome, List.pairwise_cons]
    exact ⟨by decide, by decide, List.Pairwise.nil⟩
  · simp only [quotedOutcome, List.forall_mem_cons]
    refine ⟨⟨coded (by decide), fun k => ?_⟩, ⟨coded (by decide), fun k => ?_⟩,
      List.forall_mem_nil _⟩
    · cases k <;> simp only [UnusedEntry.names, List.forall_mem_cons]
      · exact ⟨coded (by decide), List.forall_mem_nil _⟩
      · exact ⟨coded (by decide), List.forall_mem_nil _⟩
      · exact List.forall_mem_nil _
    · cases k <;> simp only [UnusedEntry.names, List.forall_mem_cons]
      · exact List.forall_mem_nil _
      · exact List.forall_mem_nil _
      · exact ⟨coded (by decide), coded (by decide), List.forall_mem_nil _⟩

theorem isRecovered_json_quotedOutcome : quotedOutcome.IsTyped ∧
    (∀ e ∈ quotedOutcome.unused, e.1.IsSpaceless) ∧
      ∃ text, json quotedOutcome = .ok text ∧ IsRecovered quotedOutcome text := by
  have spaceless : ∀ e ∈ quotedOutcome.unused, e.1.IsSpaceless := by
    simp only [quotedOutcome, List.forall_mem_cons]
    exact ⟨⟨by decide, by decide⟩, ⟨by decide, by decide⟩, List.forall_mem_nil _⟩
  exact ⟨isTyped_quotedOutcome, spaceless, isRecovered_json isTyped_quotedOutcome spaceless⟩

end Report

end UnusedDeps
