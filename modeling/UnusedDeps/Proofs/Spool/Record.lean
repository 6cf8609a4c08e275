import UnusedDeps.Proofs.Invocation.Arguments
import UnusedDeps.Proofs.Json.RoundTrip
import UnusedDeps.Proofs.Path
import UnusedDeps.Proofs.Steps
import UnusedDeps.Spool.Index

/-!
# What comes back from a spool directory

A record of faithful texts comes back from the text of its file. So does the
index of the packages of a build, in which each package is found under its
manifest directory when no two packages share one. Main statements:
`readRecord_recordBytes` and `exists_ofText_toText`.
-/

namespace UnusedDeps

/-- Whether a value is a text that comes back from JSON. -/
def Value.IsFaithfulText (v : Value) : Prop := ∃ s, v = .text s ∧ Text.IsFaithful s

/-- Whether the parts of an identity are texts that come back from JSON. -/
structure PackageId.IsFaithful (p : PackageId) : Prop where
  name : p.name.IsFaithfulText
  version : p.version.IsFaithfulText
  source : p.source.IsFaithfulText

theorem PackageId.IsFaithful.isLocal? {id : PackageId} (h : id.IsFaithful) :
    ∃ b, id.isLocal? = some b := by
  obtain ⟨source, hsource, -⟩ := h.source
  rw [PackageId.isLocal?, hsource]
  exact ⟨_, rfl⟩

theorem Value.IsFaithfulText.isFaithful {v : Value} (h : v.IsFaithfulText) (depth : Nat) :
    v.IsFaithful depth := by
  obtain ⟨s, rfl, hs⟩ := h
  exact .text depth hs

/-- A table with names of printable characters is as faithful as what stands under them. -/
theorem Value.isFaithful_table {depth : Nat} {fields : List (String × Value)} (names : List String)
    (named : fields.map (·.1) = names) (distinct : names.Nodup)
    (shown : ∀ n ∈ names, Text.IsShown n) (h : ∀ v ∈ fields.map (·.2), v.IsFaithful depth) :
    (Value.table fields).IsFaithful (depth + 1) := by
  subst named
  exact .table distinct (fun f hf => (shown f.1 (List.mem_map_of_mem hf)).isFaithful)
    fun f hf => h f.2 (List.mem_map_of_mem hf)

/-! ### Records -/

namespace InvocationRecord

/-- Whether a record has the fields of a unit that was called with texts. -/
structure IsOfTexts (r : InvocationRecord) : Prop where
  customBuild : ∃ b, r.customBuild = .bool b
  name : r.crateName.IsText
  type : r.crateType.IsText

/-- Whether the texts that a record has from the arguments of its unit come back from JSON. -/
structure HasFaithfulTexts (r : InvocationRecord) : Prop where
  crateName : ∀ s, r.crateName = .text s → Text.IsFaithful s
  crateType : ∀ s, r.crateType = .text s → Text.IsFaithful s
  extraFilename : Text.IsFaithful r.extraFilename
  outDir : Text.IsFaithful r.outDir.text
  externs : ∀ e ∈ r.externs, Text.IsFaithful e.1 ∧ Text.IsFaithful e.2

/-- Whether a record holds a flag and texts, and all of these come back from JSON. -/
structure IsFaithful (r : InvocationRecord) : Prop extends r.HasFaithfulTexts where
  package : r.package.IsFaithful
  customBuild : ∃ b, r.customBuild = .bool b
  name : r.crateName.IsText
  type : r.crateType.IsText

theorem IsFaithful.isOfTexts {r : InvocationRecord} (h : r.IsFaithful) : r.IsOfTexts :=
  ⟨h.customBuild, h.name, h.type⟩

section Decoding

variable {ε : Type} {d : Decoder ε}

/-- Whether a decoder shows texts as they are. -/
def Decoder.KeepsTexts (d : Decoder ε) : Prop := ∀ s, d.shown (.text s) = .ok s

theorem keepsTexts_unlimited : unlimited.KeepsTexts := fun _ => rfl

theorem keepsTexts_within (room : Nat) : (within room).KeepsTexts := fun _ => rfl

theorem externsOf_list (keeps : d.KeepsTexts) (es : List (String × String)) :
    externsOf d (.list (es.map fun e => .list [.text e.1, .text e.2])) = .ok es := by
  show (es.map fun e => Value.list [.text e.1, .text e.2]).mapM (externOf d) = .ok es
  rw [mapM_eq_ok, List.forall₂_map_left_iff, List.forall₂_same]
  intro e _
  show (d.shown (.text e.1) >>= fun a => d.shown (.text e.2) >>= fun b => pure (a, b)) = _
  rw [keeps, keeps]
  rfl

/-- Whether a record is the one that a decoder reads off a value: every field of the record is read
off one of the value. -/
structure IsDecodedFrom (d : Decoder ε) (r : InvocationRecord) (v : Value) : Prop where
  package : ∃ w, field v "package_id" = .ok w ∧ packageOf w = .ok r.package
  customBuild : ∃ w, field v "custom_build" = .ok w ∧ r.customBuild = .bool w.isTruthy
  crateName : ∃ w s, field v "crate_name" = .ok w ∧ d.shown w = .ok s ∧ r.crateName = .text s
  crateType : ∃ w s, field v "crate_type" = .ok w ∧ d.shown w = .ok s ∧ r.crateType = .text s
  extraFilename : ∃ w, field v "extra_filename" = .ok w ∧ d.shown w = .ok r.extraFilename
  capLintsAllow : ∃ w, field v "cap_lints_allow" = .ok w ∧ r.capLintsAllow = w.isTruthy
  outDir : ∃ w s, field v "out_dir" = .ok w ∧ textOf w = .ok s ∧ r.outDir = Path.ofText s
  externs : ∃ w, field v "externs" = .ok w ∧ externsOf d w = .ok r.externs

theorem decode_eq_ok_iff {v : Value} {r : InvocationRecord} :
    decode d v = .ok r ↔ IsDecodedFrom d r v := by
  simp only [decode, bind_eq_ok, pure_eq_ok, mapError_eq_ok]
  constructor
  · rintro ⟨w₁, h₁, package, hpackage, w₂, h₂, w₃, h₃, name, hname, w₄, h₄, type, htype, w₅, h₅,
      extra, hextra, w₆, h₆, w₇, h₇, s, hs, w₈, h₈, externs, hexterns, rfl⟩
    exact ⟨⟨w₁, h₁, hpackage⟩, ⟨w₂, h₂, rfl⟩, ⟨w₃, name, h₃, hname, rfl⟩,
      ⟨w₄, type, h₄, htype, rfl⟩, ⟨w₅, h₅, hextra⟩, ⟨w₆, h₆, rfl⟩, ⟨w₇, s, h₇, hs, rfl⟩,
      ⟨w₈, h₈, hexterns⟩⟩
  · rintro ⟨⟨w₁, h₁, hpackage⟩, ⟨w₂, h₂, e₂⟩, ⟨w₃, name, h₃, hname, e₃⟩,
      ⟨w₄, type, h₄, htype, e₄⟩, ⟨w₅, h₅, hextra⟩, ⟨w₆, h₆, e₆⟩, ⟨w₇, s, h₇, hs, e₇⟩,
      ⟨w₈, h₈, hexterns⟩⟩
    refine ⟨w₁, h₁, _, hpackage, w₂, h₂, w₃, h₃, name, hname, w₄, h₄, type, htype, w₅, h₅, _,
      hextra, w₆, h₆, w₇, h₇, s, hs, w₈, h₈, _, hexterns, ?_⟩
    rw [← e₂, ← e₃, ← e₄, ← e₆, ← e₇]

/-- A record comes back from its value, whoever reads it. -/
theorem decode_toValue (keeps : d.KeepsTexts) {r : InvocationRecord} (h : r.IsOfTexts) :
    decode d r.toValue = .ok r := by
  obtain ⟨b, hb⟩ := h.customBuild
  obtain ⟨name, hname⟩ := h.name
  obtain ⟨type, htype⟩ := h.type
  rw [decode_eq_ok_iff]
  exact {
    package := ⟨_, rfl, rfl⟩
    customBuild := ⟨_, rfl, by rw [hb, Value.isTruthy]⟩
    crateName := ⟨_, name, rfl, hname ▸ keeps name, hname⟩
    crateType := ⟨_, type, rfl, htype ▸ keeps type, htype⟩
    extraFilename := ⟨_, rfl, keeps r.extraFilename⟩
    capLintsAllow := ⟨_, rfl, rfl⟩
    outDir := ⟨_, r.outDir.text, rfl, rfl, (Path.ofText_text r.outDir).symm⟩
    externs := ⟨_, rfl, externsOf_list keeps r.externs⟩ }

end Decoding

theorem isFaithful_toValue {r : InvocationRecord} (h : r.IsFaithful) : r.toValue.IsFaithful 3 := by
  obtain ⟨b, hb⟩ := h.customBuild
  obtain ⟨name, hname⟩ := h.name
  obtain ⟨type, htype⟩ := h.type
  have package : (Value.table [("name", r.package.name), ("version", r.package.version),
      ("source", r.package.source)]).IsFaithful 2 := by
    refine Value.isFaithful_table ["name", "version", "source"] rfl (by decide) (by decide) ?_
    simp only [List.map_cons, List.map_nil, List.forall_mem_cons]
    exact ⟨h.package.name.isFaithful 1, h.package.version.isFaithful 1,
      h.package.source.isFaithful 1, List.forall_mem_nil _⟩
  have externs :
      (Value.list (r.externs.map fun e => .list [.text e.1, .text e.2])).IsFaithful 2 := by
    refine .list fun v hv => ?_
    obtain ⟨e, he, rfl⟩ := List.mem_map.1 hv
    refine .list ?_
    simp only [List.forall_mem_cons]
    exact ⟨.text 0 (h.externs e he).1, .text 0 (h.externs e he).2, List.forall_mem_nil _⟩
  refine Value.isFaithful_table ["package_id", "custom_build", "crate_name", "crate_type",
    "extra_filename", "cap_lints_allow", "out_dir", "externs"] rfl (by decide) (by decide) ?_
  simp only [List.map_cons, List.map_nil, List.forall_mem_cons]
  exact ⟨package, hb ▸ .bool 2 b, hname ▸ .text 2 (h.crateName name hname),
    htype ▸ .text 2 (h.crateType type htype), .text 2 h.extraFilename, .bool 2 _,
    .text 2 h.outDir, externs, List.forall_mem_nil _⟩

end InvocationRecord

theorem valueOfJson_print {v : Value} {d : Nat} (h : v.IsFaithful d) (shallow : d ≤ 988)
    (refusal : Fault) : valueOfJson (Json.print .ascii v) refusal = .ok v := by
  rw [valueOfJson, Json.document_print .ascii h shallow]
  rfl

theorem Spool.isShown_recordText {r : InvocationRecord} (h : r.IsFaithful) :
    Text.IsShown (recordText r) :=
  Json.isShown_print (InvocationRecord.isFaithful_toValue h)

/-- The record of a file with the text of a faithful value is the one that the value gives. -/
theorem Spool.readRecord_print {v : Value} (h : v.IsFaithful 3) :
    readRecord (FileTree.bytesOf (Json.print .ascii v)) =
      InvocationRecord.ofValueWithin room v := by
  rw [readRecord, (Json.isShown_print h).textOf?]
  show recordOfText (Json.print .ascii v) = _
  rw [recordOfText, valueOfJson_print h (by decide)]
  rfl

/-- A record comes back from its file. -/
theorem Spool.readRecord_recordBytes {r : InvocationRecord} (h : r.IsFaithful) :
    readRecord (recordBytes r) = .ok r :=
  (readRecord_print (InvocationRecord.isFaithful_toValue h)).trans
    (InvocationRecord.decode_toValue (InvocationRecord.keepsTexts_within room) h.isOfTexts)

/-! ### The index -/

namespace PackagesIndex

/-- Whether the directories and identities of an index come back from JSON. -/
def IsFaithful (index : PackagesIndex) : Prop :=
  ∀ e ∈ index, Text.IsFaithful e.1.text ∧ e.2.IsFaithful

theorem ofRow_rowValue (e : Path × PackageId) : ofRow (rowValue e) = .ok e := by
  have path := Path.ofText_text e.1
  rw [ofRow, mapError_eq_ok]
  simp [rowValue, InvocationRecord.field, InvocationRecord.packageOf, InvocationRecord.textOf,
    Mapping.get?, path, bind, Except.bind, pure, Except.pure]

variable {index : PackagesIndex}

theorem isFaithful_rows (h : index.IsFaithful) :
    (Value.list (index.sorted.map rowValue)).IsFaithful 2 := by
  refine .list fun v hv => ?_
  obtain ⟨e, he, rfl⟩ := List.mem_map.1 hv
  obtain ⟨directory, id⟩ := h e ((mem_sortByKey _ _ _).1 he)
  refine Value.isFaithful_table ["manifest_dir", "name", "version", "source"] rfl (by decide)
    (by decide) ?_
  simp only [List.map_cons, List.map_nil, List.forall_mem_cons]
  exact ⟨.text 0 directory, id.name.isFaithful 0, id.version.isFaithful 0, id.source.isFaithful 0,
    List.forall_mem_nil _⟩

theorem isShown_toText (h : index.IsFaithful) : Text.IsShown index.toText :=
  Json.isShown_print (isFaithful_rows h)

theorem ofText_toText (h : index.IsFaithful) :
    ofText index.toText = .ok (Mapping.ofPairs index.sorted) := by
  have rows : (index.sorted.map rowValue).mapM ofRow = .ok index.sorted := by
    rw [mapM_eq_ok, List.forall₂_map_left_iff, List.forall₂_same]
    exact fun e _ => ofRow_rowValue e
  rw [ofText, toText, valueOfJson_print (isFaithful_rows h) (by decide)]
  show ((index.sorted.map rowValue).mapM ofRow).map Mapping.ofPairs = _
  rw [rows]
  rfl

/-- An index comes back from its text: each directory leads to its package. -/
theorem exists_ofText_toText (h : index.IsFaithful) (distinct : (index.map (·.1)).Nodup) :
    ∃ back, ofText index.toText = .ok back ∧
      ∀ e ∈ index, Mapping.get? back e.1 = some e.2 := by
  have perm : index.sorted.Perm index := List.mergeSort_perm index _
  have distinct' : (index.sorted.map (·.1)).Nodup := (perm.map _).nodup_iff.2 distinct
  refine ⟨_, ofText_toText h, fun e he => ?_⟩
  rw [Mapping.ofPairs_of_nodup distinct']
  exact Mapping.get?_of_mem distinct' (perm.mem_iff.2 he)

end PackagesIndex

end UnusedDeps
