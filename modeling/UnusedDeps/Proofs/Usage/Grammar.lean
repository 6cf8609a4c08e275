import Mathlib
import UnusedDeps.Proofs.Failures.Readers
import UnusedDeps.Proofs.Json.Strict
import UnusedDeps.Proofs.Schema
import UnusedDeps.Proofs.Text.Shown
import UnusedDeps.Usage.Artifact

/-!
# The grammar of usage artifacts

An artifact is read all or nothing. The grammar says which documents are artifacts: a
table whose prelude, if it has one, lists external crates, each with an identity that
has a name. The text of such a table, within the limits of artifacts, gives exactly the
names in it; every other text is an unreadable artifact. Unknown fields, and the order
and repetition of crates, make no difference.
Main statement: `UsageArtifact.isReadWhole_of_hasText`.
-/

namespace UnusedDeps

/-! ### Integers -/

/-- Whether a value counts as an integer: truth values do, floating-point numbers without a fraction
and of 64 bits, and texts that show an integer. -/
inductive Value.IsInteger : Value → Prop
  | int (n : Int) : IsInteger (.int n)
  | bool (b : Bool) : IsInteger (.bool b)
  | float {x : Binary64} {n : Int} (whole : x.integer? = some n)
      (small : n.natAbs < Read.exchangeBound) : IsInteger (.float x)
  | text {s : String} {n : Int} (unicode : Text.hasHalfPair s = false)
      (shown : shownInteger s = .value n) : IsInteger (.text s)

namespace Read

theorem intOfText_eq_ok {s : String} {n : Int} : intOfText s = .ok n ↔ shownInteger s = .value n := by
  unfold intOfText
  split <;> rename_i h <;> simp [h, Checked.fault]

theorem intOfFloat_eq_ok {x : Binary64} {n : Int} :
    intOfFloat x = .ok n ↔ x.integer? = some n ∧ n.natAbs < exchangeBound := by
  unfold intOfFloat
  cases x with
  | finite negative m e =>
    dsimp only
    split
    · rename_i k hk
      rw [hk, Option.some.injEq]
      split
      · rename_i small
        rw [Except.ok.injEq]
        exact ⟨fun h => ⟨h, h ▸ small⟩, fun h => h.1⟩
      · rename_i large
        exact ⟨nofun, fun h => absurd (h.1 ▸ h.2) large⟩
    · rename_i fraction
      simp [fraction, Checked.fault]
  | _ => simp [Checked.fault, Binary64.integer?]

theorem exists_int_iff {v : Value} : (∃ n, int v = .ok n) ↔ v.IsInteger := by
  constructor
  · rintro ⟨n, h⟩
    cases v with
    | int n => exact .int n
    | bool b => exact .bool b
    | float x =>
      obtain ⟨whole, small⟩ := intOfFloat_eq_ok.1 h
      exact .float whole small
    | text s =>
      simp only [int, ofCharacters] at h
      split at h
      · cases h
      · rename_i unicode
        exact .text (Bool.eq_false_iff.2 unicode) (intOfText_eq_ok.1 h)
    | _ => cases h
  · intro h
    cases h with
    | int n => exact ⟨n, rfl⟩
    | bool b => exact ⟨_, rfl⟩
    | float whole small => exact ⟨_, intOfFloat_eq_ok.2 ⟨whole, small⟩⟩
    | @text s n unicode shown =>
      refine ⟨n, ?_⟩
      rw [int, ofCharacters, unicode]
      exact intOfText_eq_ok.2 shown

end Read

namespace UsageArtifact

/-! ### The grammar -/

/-- The identity of a crate: a name, and two integers where they are given. -/
structure IsCrateId (fields : Fields) : Prop where
  name : ∃ s, Mapping.get? fields "name" = some (.text s)
  disambiguator : ∀ v, Mapping.get? fields "disambiguator" = some v →
    v = .null ∨ ∃ a b, v = .list [a, b] ∧ a.IsInteger ∧ b.IsInteger

/-- An external crate: an identity, and a file and a number where they are given. -/
structure IsCrate (fields : Fields) : Prop where
  id : ∃ inner, Mapping.get? fields "id" = some (.table inner) ∧ IsCrateId inner
  file : ∀ v, Mapping.get? fields "file_name" = some v → v = .null ∨ v.IsText
  num : ∀ v, Mapping.get? fields "num" = some v → v = .null ∨ v.IsInteger

/-- A prelude: an array of external crates, if it has one. -/
def IsPrelude (fields : Fields) : Prop :=
  ∀ v, Mapping.get? fields "external_crates" = some v →
    ∃ items, v = .list items ∧ ∀ item ∈ items, ∃ crate, item = .table crate ∧ IsCrate crate

/-- A document: null or a prelude under its name, if there is one. -/
def IsDocument (fields : Fields) : Prop :=
  ∀ v, Mapping.get? fields "prelude" = some v → v = .null ∨ ∃ inner, v = .table inner ∧ IsPrelude inner

/-- The name in the identity of a crate. -/
def HasName (crate : Fields) (name : String) : Prop :=
  ∃ id, Mapping.get? crate "id" = some (.table id) ∧ Mapping.get? id "name" = some (.text name)

/-- Whether a name is that of one of the crates of a prelude. -/
def Names (prelude : Fields) (name : String) : Prop :=
  ∃ items crate, Mapping.get? prelude "external_crates" = some (.list items) ∧
    .table crate ∈ items ∧ HasName crate name

/-- Whether a document refers to a name. -/
def RefersTo (fields : Fields) (name : String) : Prop :=
  ∃ prelude, Mapping.get? fields "prelude" = some (.table prelude) ∧ Names prelude name

/-! ### What the readers take -/

theorem readCrateId_eq_ok {fields : Fields} {name : String} :
    readCrateId fields = .ok name ↔
      IsCrateId fields ∧ Mapping.get? fields "name" = some (.text name) := by
  simp only [readCrateId, Checked.map_fst_both_eq_ok, Read.required_eq_ok, Read.text_eq_ok,
    exists_eq_right, Read.exists_optional_iff, Read.exists_nullable_iff, Read.exists_pair_iff,
    Read.exists_int_iff]
  exact ⟨fun h => ⟨⟨⟨name, h.1⟩, h.2⟩, h.1⟩, fun h => ⟨h.2, h.1.disambiguator⟩⟩

theorem readCrate_eq_ok {fields : Fields} {name : String} :
    readCrate fields = .ok name ↔ IsCrate fields ∧ HasName fields name := by
  have id : Read.required fields "id" (Read.table readCrateId) = .ok name ↔
      ∃ inner, Mapping.get? fields "id" = some (.table inner) ∧ IsCrateId inner ∧
        Mapping.get? inner "name" = some (.text name) := by
    simp only [Read.required_eq_ok, Read.table_eq_ok, readCrateId_eq_ok]
    constructor
    · rintro ⟨_, given, inner, rfl, h⟩
      exact ⟨inner, given, h⟩
    · rintro ⟨inner, given, h⟩
      exact ⟨_, given, inner, rfl, h⟩
  have file : (∃ a, Read.optional fields "file_name" none (Read.nullable Read.text) = .ok a) ↔
      ∀ v, Mapping.get? fields "file_name" = some v → v = .null ∨ v.IsText := by
    simp only [Read.exists_optional_iff, Read.exists_nullable_iff, Read.text_eq_ok, Value.IsText]
  have num : (∃ a, Read.optional fields "num" none (Read.nullable Read.int) = .ok a) ↔
      ∀ v, Mapping.get? fields "num" = some v → v = .null ∨ v.IsInteger := by
    simp only [Read.exists_optional_iff, Read.exists_nullable_iff, Read.exists_int_iff]
  rw [readCrate, Checked.map_eq_ok]
  simp only [Checked.both_eq_ok, Prod.exists]
  constructor
  · rintro ⟨_, _, _, ⟨⟨hid, hfile⟩, hnum⟩, rfl⟩
    obtain ⟨inner, given, proper, named⟩ := id.1 hid
    exact ⟨⟨⟨inner, given, proper⟩, file.1 ⟨_, hfile⟩, num.1 ⟨_, hnum⟩⟩, inner, given, named⟩
  · rintro ⟨proper, inner, given, named⟩
    obtain ⟨inner', given', properId⟩ := proper.id
    cases given.symm.trans given'
    obtain ⟨a, ha⟩ := file.2 proper.file
    obtain ⟨b, hb⟩ := num.2 proper.num
    exact ⟨name, a, b, ⟨⟨id.2 ⟨inner, given, properId, named⟩, ha⟩, hb⟩, rfl⟩

theorem IsCrate.exists_name {fields : Fields} (h : IsCrate fields) : ∃ name, HasName fields name := by
  obtain ⟨inner, given, proper⟩ := h.id
  obtain ⟨name, named⟩ := proper.name
  exact ⟨name, inner, given, named⟩

theorem exists_readPrelude_iff {fields : Fields} :
    (∃ names, readPrelude fields = .ok names) ↔ IsPrelude fields := by
  have crate (item : Value) : (∃ name, Read.table readCrate item = .ok name) ↔
      ∃ crate, item = .table crate ∧ IsCrate crate := by
    simp only [Read.exists_table_iff, readCrate_eq_ok, exists_and_left]
    exact exists_congr fun inner => and_congr_right fun _ =>
      and_iff_left_of_imp IsCrate.exists_name
  simp only [readPrelude, Read.exists_optional_iff, Read.exists_listOr_iff, crate, IsPrelude]

theorem mem_readPrelude {fields : Fields} {names : List String}
    (h : readPrelude fields = .ok names) (name : String) : name ∈ names ↔ Names fields name := by
  rcases Read.optional_eq_ok.1 h with ⟨absent, rfl⟩ | ⟨v, given, h⟩
  · simp [Names, absent]
  · obtain ⟨items, rfl, read⟩ := Read.listOr_eq_ok.1 h
    constructor
    · intro hname
      obtain ⟨item, hitem, hread⟩ := exists_left_of_forall₂ read hname
      obtain ⟨crate, rfl, hcrate⟩ := Read.table_eq_ok.1 hread
      exact ⟨items, crate, given, hitem, (readCrate_eq_ok.1 hcrate).2⟩
    · rintro ⟨items', crate, given', hitem, id, hid, named⟩
      cases given.symm.trans given'
      obtain ⟨name', hname, hread⟩ := exists_right_of_forall₂ read hitem
      obtain ⟨-, id', hid', named'⟩ := readCrate_eq_ok.1 hread
      cases hid.symm.trans hid'
      cases named.symm.trans named'
      exact hname

theorem exists_readDocument_iff {v : Value} :
    (∃ names, readDocument v = .ok names) ↔ ∃ fields, v = .table fields ∧ IsDocument fields := by
  have map {α β : Type} {c : Checked α} {f : α → β} :
      (∃ b, c.map f = .ok b) ↔ ∃ a, c = .ok a := by
    simp only [Checked.map_eq_ok]
    exact ⟨fun ⟨_, a, h, _⟩ => ⟨a, h⟩, fun ⟨a, h⟩ => ⟨f a, a, h, rfl⟩⟩
  simp only [readDocument, Read.exists_table_iff, map, Read.exists_optional_iff,
    Read.exists_nullable_iff, exists_readPrelude_iff, IsDocument]

theorem mem_readDocument {fields : Fields} {names : List String}
    (h : readDocument (.table fields) = .ok names) (name : String) :
    name ∈ names ↔ RefersTo fields name := by
  obtain ⟨_, hread, rfl⟩ := Checked.map_eq_ok.1 h
  rcases Read.optional_eq_ok.1 hread with ⟨absent, rfl⟩ | ⟨v, given, hread⟩
  · simp [RefersTo, absent]
  · cases v with
    | null =>
      cases hread
      simp [RefersTo, given]
    | table prelude =>
      obtain ⟨names, hnames, rfl⟩ := Checked.map_eq_ok.1 hread
      rw [Option.getD_some, mem_readPrelude hnames]
      constructor
      · exact fun named => ⟨prelude, given, named⟩
      · rintro ⟨_, given', named⟩
        cases given.symm.trans given'
        exact named
    | _ => cases hread

/-! ### What makes no difference -/

end UsageArtifact

namespace Value

/-- Whether two values are the same, or tables that have related values under each known name. -/
inductive SameFields (known : List (String × (Value → Value → Prop))) : Value → Value → Prop
  | same (v : Value) : SameFields known v v
  | tables {fs gs : Fields}
      (left : ∀ e ∈ known, ∀ v, Mapping.get? fs e.1 = some v →
        ∃ w, Mapping.get? gs e.1 = some w ∧ e.2 v w)
      (right : ∀ e ∈ known, ∀ w, Mapping.get? gs e.1 = some w →
        ∃ v, Mapping.get? fs e.1 = some v ∧ e.2 v w) :
      SameFields known (.table fs) (.table gs)

/-- Whether two values are the same, or lists of which each element is related to one of the
other. -/
inductive SameElements (R : Value → Value → Prop) : Value → Value → Prop
  | same (v : Value) : SameElements R v v
  | lists {vs ws : List Value} (left : ∀ v ∈ vs, ∃ w ∈ ws, R v w)
      (right : ∀ w ∈ ws, ∃ v ∈ vs, R v w) : SameElements R (.list vs) (.list ws)

variable {known : List (String × (Value → Value → Prop))} {R : Value → Value → Prop}

theorem SameFields.symm (hknown : ∀ e ∈ known, ∀ v w, e.2 v w → e.2 w v) {v w : Value}
    (h : SameFields known v w) : SameFields known w v := by
  cases h with
  | same => exact .same v
  | tables left right =>
    exact .tables
      (fun e he v hv => (right e he v hv).imp fun _ hw => ⟨hw.1, hknown e he _ _ hw.2⟩)
      fun e he w hw => (left e he w hw).imp fun _ hv => ⟨hv.1, hknown e he _ _ hv.2⟩

theorem SameElements.symm (hR : ∀ v w, R v w → R w v) {v w : Value} (h : SameElements R v w) :
    SameElements R w v := by
  cases h with
  | same => exact .same v
  | lists left right =>
    exact .lists (fun w hw => (right w hw).imp fun v hv => ⟨hv.1, hR _ _ hv.2⟩)
      fun v hv => (left v hv).imp fun w hw => ⟨hw.1, hR _ _ hw.2⟩

theorem SameFields.exists_table {fs : Fields} {w : Value} (h : SameFields known (.table fs) w) :
    ∃ gs, w = .table gs := by
  cases h with
  | same => exact ⟨fs, rfl⟩
  | tables => exact ⟨_, rfl⟩

theorem SameFields.exists_get? {fs gs : Fields} (h : SameFields known (.table fs) (.table gs))
    {name : String} (hname : (name, R) ∈ known) (hR : ∀ v, R v v) {v : Value}
    (hv : Mapping.get? fs name = some v) : ∃ w, Mapping.get? gs name = some w ∧ R v w := by
  cases h with
  | same => exact ⟨v, hv, hR v⟩
  | tables left _ => exact left _ hname v hv

theorem SameElements.exists_list {vs : List Value} {w : Value} (h : SameElements R (.list vs) w)
    (hR : ∀ v, R v v) : ∃ ws, w = .list ws ∧ (∀ v ∈ vs, ∃ w ∈ ws, R v w) ∧
      ∀ w ∈ ws, ∃ v ∈ vs, R v w := by
  cases h with
  | same => exact ⟨vs, rfl, fun v hv => ⟨v, hv, hR v⟩, fun v hv => ⟨v, hv, hR v⟩⟩
  | lists left right => exact ⟨_, rfl, left, right⟩

end Value

namespace UsageArtifact

/-- Whether two identities differ in unknown fields only. -/
def SameId : Value → Value → Prop := Value.SameFields [("name", Eq), ("disambiguator", Eq)]

def SameCrate : Value → Value → Prop :=
  Value.SameFields [("id", SameId), ("file_name", Eq), ("num", Eq)]

/-- Whether two preludes have the same crates, in whatever order and however often. -/
def SamePrelude : Value → Value → Prop :=
  Value.SameFields [("external_crates", Value.SameElements SameCrate)]

/-- Whether two documents differ in unknown fields and in the order and repetition of crates only. -/
def SameDocument : Value → Value → Prop := Value.SameFields [("prelude", SamePrelude)]

theorem SameId.symm {v w : Value} (h : SameId v w) : SameId w v :=
  Value.SameFields.symm (by simp [eq_comm]) h

theorem SameCrate.symm {v w : Value} (h : SameCrate v w) : SameCrate w v := by
  refine Value.SameFields.symm ?_ h
  simp only [List.forall_mem_cons]
  exact ⟨fun _ _ => SameId.symm, fun _ _ => Eq.symm, fun _ _ => Eq.symm, List.forall_mem_nil _⟩

theorem SamePrelude.symm {v w : Value} (h : SamePrelude v w) : SamePrelude w v := by
  refine Value.SameFields.symm ?_ h
  rw [List.forall_mem_singleton]
  exact fun _ _ => Value.SameElements.symm fun _ _ => SameCrate.symm

theorem SameDocument.symm {v w : Value} (h : SameDocument v w) : SameDocument w v := by
  refine Value.SameFields.symm ?_ h
  rw [List.forall_mem_singleton]
  exact fun _ _ => SamePrelude.symm

theorem IsCrateId.of_same {fs gs : Fields} (h : IsCrateId fs)
    (same : SameId (.table fs) (.table gs)) : IsCrateId gs := by
  refine ⟨?_, fun v hv => ?_⟩
  · obtain ⟨s, hs⟩ := h.name
    obtain ⟨_, hw, rfl⟩ := same.exists_get? (by simp) (fun _ => rfl) hs
    exact ⟨s, hw⟩
  · obtain ⟨_, hw, rfl⟩ := same.symm.exists_get? (by simp) (fun _ => rfl) hv
    exact h.disambiguator _ hw

theorem HasName.of_same {fs gs : Fields} {name : String} (h : HasName fs name)
    (same : SameCrate (.table fs) (.table gs)) : HasName gs name := by
  obtain ⟨id, hid, hname⟩ := h
  obtain ⟨w, hw, sameId⟩ := same.exists_get? (R := SameId) (by simp) Value.SameFields.same hid
  obtain ⟨id', rfl⟩ := sameId.exists_table
  obtain ⟨_, hname', rfl⟩ := sameId.exists_get? (by simp) (fun _ => rfl) hname
  exact ⟨id', hw, hname'⟩

theorem IsCrate.of_same {fs gs : Fields} (h : IsCrate fs)
    (same : SameCrate (.table fs) (.table gs)) : IsCrate gs := by
  refine ⟨?_, fun v hv => ?_, fun v hv => ?_⟩
  · obtain ⟨id, hid, proper⟩ := h.id
    obtain ⟨w, hw, sameId⟩ := same.exists_get? (R := SameId) (by simp) Value.SameFields.same hid
    obtain ⟨id', rfl⟩ := sameId.exists_table
    exact ⟨id', hw, proper.of_same sameId⟩
  · obtain ⟨_, hw, rfl⟩ := same.symm.exists_get? (by simp) (fun _ => rfl) hv
    exact h.file _ hw
  · obtain ⟨_, hw, rfl⟩ := same.symm.exists_get? (by simp) (fun _ => rfl) hv
    exact h.num _ hw

/-- The list of crates of a prelude and that of another one. -/
theorem SamePrelude.exists_crates {fs gs : Fields} (same : SamePrelude (.table fs) (.table gs))
    {items : List Value} (h : Mapping.get? fs "external_crates" = some (.list items)) :
    ∃ items', Mapping.get? gs "external_crates" = some (.list items') ∧
      (∀ v ∈ items, ∃ w ∈ items', SameCrate v w) ∧ ∀ w ∈ items', ∃ v ∈ items, SameCrate v w := by
  obtain ⟨_, hw, elements⟩ := same.exists_get? (R := Value.SameElements SameCrate) (by simp)
    Value.SameElements.same h
  obtain ⟨items', rfl, left, right⟩ := elements.exists_list Value.SameFields.same
  exact ⟨items', hw, left, right⟩

theorem Names.of_same {fs gs : Fields} {name : String} (h : Names fs name)
    (same : SamePrelude (.table fs) (.table gs)) : Names gs name := by
  obtain ⟨items, crate, hitems, hcrate, named⟩ := h
  obtain ⟨items', hitems', left, -⟩ := same.exists_crates hitems
  obtain ⟨w, hw, sameCrate⟩ := left _ hcrate
  obtain ⟨crate', rfl⟩ := sameCrate.exists_table
  exact ⟨items', crate', hitems', hw, named.of_same sameCrate⟩

theorem IsPrelude.of_same {fs gs : Fields} (h : IsPrelude fs)
    (same : SamePrelude (.table fs) (.table gs)) : IsPrelude gs := by
  intro v hv
  obtain ⟨w, hw, elements⟩ := same.symm.exists_get? (R := Value.SameElements SameCrate) (by simp)
    Value.SameElements.same hv
  obtain ⟨items, rfl, crates⟩ := h w hw
  obtain ⟨items', hitems', -, right⟩ := same.exists_crates hw
  cases hv.symm.trans hitems'
  refine ⟨items', rfl, fun item hitem => ?_⟩
  obtain ⟨u, hu, sameCrate⟩ := right item hitem
  obtain ⟨crate, rfl, proper⟩ := crates u hu
  obtain ⟨crate', rfl⟩ := sameCrate.exists_table
  exact ⟨crate', rfl, proper.of_same sameCrate⟩

theorem RefersTo.of_same {fs gs : Fields} {name : String} (h : RefersTo fs name)
    (same : SameDocument (.table fs) (.table gs)) : RefersTo gs name := by
  obtain ⟨prelude, hprelude, named⟩ := h
  obtain ⟨_, hw, samePrelude⟩ := same.exists_get? (R := SamePrelude) (by simp)
    Value.SameFields.same hprelude
  obtain ⟨prelude', rfl⟩ := samePrelude.exists_table
  exact ⟨prelude', hw, named.of_same samePrelude⟩

theorem IsDocument.of_same {fs gs : Fields} (h : IsDocument fs)
    (same : SameDocument (.table fs) (.table gs)) : IsDocument gs := by
  intro v hv
  obtain ⟨w, hw, samePrelude⟩ := same.symm.exists_get? (R := SamePrelude) (by simp)
    Value.SameFields.same hv
  rcases h w hw with rfl | ⟨prelude, rfl, proper⟩
  · cases samePrelude
    exact .inl rfl
  · obtain ⟨prelude', rfl⟩ := samePrelude.symm.exists_table
    exact .inr ⟨prelude', rfl, proper.of_same samePrelude.symm⟩

/-! ### Loading -/

/-- Whether the file of an artifact can be read and holds a text. -/
def HasText (files : FileTree) (r : InvocationRecord) (s : String) : Prop :=
  ∃ path, r.artifactPath = .ok path ∧ files.readText path = .ok s

/-- Two artifacts with the same names, or two failures. -/
inductive SameNames : Except Fault UsageArtifact → Except Fault UsageArtifact → Prop
  | artifacts {a b : UsageArtifact} (h : ∀ name, name ∈ a.libraries ↔ name ∈ b.libraries) :
      SameNames (.ok a) (.ok b)
  | failures {e f : Fault} : SameNames (.error e) (.error f)

theorem result_load {files : FileTree} {r : InvocationRecord} {path : Path} {s : String}
    (hpath : r.artifactPath = .ok path) (hs : files.readText path = .ok s) :
    (load files r).result = (ofJson s).mapError fun faults =>
      .problem (.unreadableArtifact r.crateName.plainText path r.package.text (.schema faults)) := by
  have text : files.readOr path
      (.unreadableArtifact r.crateName.plainText path r.package.text) = .ok s :=
    FileTree.readOr_eq_ok.2 hs
  unfold load
  simp only [Logged.result_bind, Logged.result_ofExcept, hpath]
  show (files.readOr path _ >>= fun t => _) = _
  rw [text]
  rfl

/-- Whether a text is that of a table with given fields and within the limits of artifacts. -/
structure IsTextOf (s : String) (fields : Fields) : Prop where
  limits : Json.IsWithinLimits s
  table : Json.document s = .ok (.table fields)

theorem artifact_eq_ok_iff {s : String} {fields : Fields} :
    Json.artifact s = .ok (.table fields) ↔ IsTextOf s fields := by
  rw [Json.artifact_eq_ok_iff]
  constructor
  · rintro ⟨table, limits⟩
    exact ⟨limits, table⟩
  · rintro ⟨limits, table⟩
    exact ⟨table, limits⟩

theorem exists_ofJson_iff {s : String} : (∃ a, ofJson s = .ok a) ↔
    ∃ fields, IsTextOf s fields ∧ IsDocument fields := by
  simp only [← artifact_eq_ok_iff]
  unfold ofJson
  cases Json.artifact s with
  | error e => simp [Checked.fault]
  | ok v =>
    simp only [Checked.map_eq_ok, Except.ok.injEq]
    rw [← exists_readDocument_iff]
    constructor
    · rintro ⟨_, names, h, -⟩
      exact ⟨names, h⟩
    · rintro ⟨names, h⟩
      exact ⟨⟨names⟩, names, h, rfl⟩

theorem mem_ofJson {s : String} {a : UsageArtifact} (h : ofJson s = .ok a) :
    ∃ fields, IsTextOf s fields ∧ ∀ name, name ∈ a.libraries ↔ RefersTo fields name := by
  unfold ofJson at h
  split at h
  · cases h
  · rename_i v hv
    obtain ⟨names, hnames, rfl⟩ := Checked.map_eq_ok.1 h
    obtain ⟨fields, rfl, -⟩ := exists_readDocument_iff.1 ⟨names, hnames⟩
    exact ⟨fields, artifact_eq_ok_iff.1 hv, mem_readDocument hnames⟩

/-- Whether an artifact is read whole or not at all: it is read exactly when its text is that of a
document of the grammar, what is read is the names in it, and everything else makes it unreadable.
Documents that differ in what the grammar does not know are read alike. -/
structure IsReadWhole (files : FileTree) (r : InvocationRecord) (s : String) : Prop where
  accepts : (∃ a, (load files r).result = .ok a) ↔ ∃ fields, IsTextOf s fields ∧ IsDocument fields
  names : ∀ a, (load files r).result = .ok a →
    ∃ fields, IsTextOf s fields ∧ ∀ name, name ∈ a.libraries ↔ RefersTo fields name
  refuses : ∀ e, (load files r).result = .error e →
    ∃ path faults, r.artifactPath = .ok path ∧
      e = .problem (.unreadableArtifact r.crateName.plainText path r.package.text (.schema faults))
  alike : ∀ files' r' s' fields fields', HasText files' r' s' → IsTextOf s fields → IsTextOf s' fields' →
    SameDocument (.table fields) (.table fields') →
      SameNames (load files r).result (load files' r').result

section

variable {files files' : FileTree} {r r' : InvocationRecord} {s s' : String}

theorem HasText.load_eq_ok (h : HasText files r s) {a : UsageArtifact} :
    (load files r).result = .ok a ↔ ofJson s = .ok a := by
  obtain ⟨path, hpath, hs⟩ := h
  rw [result_load hpath hs, mapError_eq_ok]

theorem HasText.exists_load_iff (h : HasText files r s) : (∃ a, (load files r).result = .ok a) ↔
    ∃ fields, IsTextOf s fields ∧ IsDocument fields := by
  simp only [h.load_eq_ok, exists_ofJson_iff]

theorem HasText.exists_load_of_same (h : HasText files r s) (h' : HasText files' r' s')
    {fields fields' : Fields} (text : IsTextOf s fields) (text' : IsTextOf s' fields')
    (same : SameDocument (.table fields) (.table fields'))
    (loaded : ∃ a, (load files r).result = .ok a) : ∃ a, (load files' r').result = .ok a := by
  obtain ⟨_, text₀, proper⟩ := h.exists_load_iff.1 loaded
  cases text.table.symm.trans text₀.table
  exact h'.exists_load_iff.2 ⟨fields', text', proper.of_same same⟩

theorem HasText.sameNames (h : HasText files r s) (h' : HasText files' r' s')
    {fields fields' : Fields} (text : IsTextOf s fields) (text' : IsTextOf s' fields')
    (same : SameDocument (.table fields) (.table fields')) :
    SameNames (load files r).result (load files' r').result := by
  have forth := h.exists_load_of_same h' text text' same
  have back := h'.exists_load_of_same h text' text same.symm
  cases ha : (load files r).result with
  | error e =>
    cases hb : (load files' r').result with
    | error f => exact .failures
    | ok b =>
      obtain ⟨a, ha'⟩ := back ⟨b, hb⟩
      cases ha.symm.trans ha'
  | ok a =>
    obtain ⟨b, hb⟩ := forth ⟨a, ha⟩
    rw [hb]
    obtain ⟨f, hf, namesA⟩ := mem_ofJson (h.load_eq_ok.1 ha)
    obtain ⟨g, hg, namesB⟩ := mem_ofJson (h'.load_eq_ok.1 hb)
    cases text.table.symm.trans hf.table
    cases text'.table.symm.trans hg.table
    refine .artifacts fun name => ?_
    rw [namesA, namesB]
    exact ⟨fun named => named.of_same same, fun named => named.of_same same.symm⟩

end

/-- An artifact with a readable text is read whole or not at all. -/
theorem isReadWhole_of_hasText {files : FileTree} {r : InvocationRecord} {s : String}
    (h : HasText files r s) : IsReadWhole files r s where
  accepts := h.exists_load_iff
  names := fun a ha => mem_ofJson (h.load_eq_ok.1 ha)
  refuses := fun e he => by
    obtain ⟨path, hpath, hs⟩ := h
    rw [result_load hpath hs] at he
    cases read : ofJson s with
    | ok a => rw [read] at he; cases he
    | error faults =>
      rw [read] at he
      exact ⟨path, faults, hpath, (Except.error.inj he).symm⟩
  alike := fun _ _ _ _ _ h' text text' same => h.sameNames h' text text' same

/-! ### Two artifacts -/

def loadedRecord : InvocationRecord where
  package := ⟨.text "app", .text "0.1.0", .text "path+file:///ws/app"⟩
  customBuild := .bool false
  crateName := .text "app"
  crateType := .text "lib"
  extraFilename := "-1"
  capLintsAllow := false
  outDir := Path.ofText "out"
  externs := []

/-- A tree with nothing but an artifact of `loadedRecord`. -/
def artifactTree (s : String) : FileTree :=
  ⟨[(⟨false, ["out", "save-analysis", "libapp-1.json"]⟩, .file (FileTree.bytesOf s) false)]⟩

theorem hasText_artifactTree {s : String} (shown : Text.IsShown s) :
    HasText (artifactTree s) loadedRecord s := by
  have named : (Path.ofText "out/save-analysis/libapp-1.json").fault? = none := rfl
  have found : (artifactTree s).lookup (Path.ofText "out/save-analysis/libapp-1.json") =
      .ok (.file (FileTree.bytesOf s) false) := rfl
  refine ⟨Path.ofText "out/save-analysis/libapp-1.json", rfl, ?_⟩
  rw [FileTree.readText, named, found]
  simp only [shown.textOf?]

/-- The artifact of a unit that refers to one crate. -/
def oneCrate : String :=
  "\x7b\"prelude\": \x7b\"external_crates\": [\x7b\"id\": \x7b\"name\": \"log\"\x7d\x7d]\x7d\x7d"

theorem isReadWhole_oneCrate : HasText (artifactTree oneCrate) loadedRecord oneCrate ∧
    IsReadWhole (artifactTree oneCrate) loadedRecord oneCrate ∧
      (load (artifactTree oneCrate) loadedRecord).result = .ok ⟨["log"]⟩ := by
  have text := hasText_artifactTree (show Text.IsShown oneCrate by decide)
  refine ⟨text, isReadWhole_of_hasText text, text.load_eq_ok.2 ?_⟩
  have read : Json.artifact oneCrate = .ok (.table [("prelude", .table [("external_crates",
      .list [.table [("id", .table [("name", .text "log")])]])])]) := by cbv
  rw [ofJson, read]
  rfl

/-- A table with a field that nothing reads, in which half of a surrogate pair is escaped. -/
def halfPairText : String := "\x7b\"compilation\": \"\\ud800\"\x7d"

def halfPairFields : Fields := [("compilation", .text (Text.ofCodes [0xd800]))]

theorem spells_halfPairText : Json.Spells 1 halfPairText.toList (.table halfPairFields) := by
  have bare : ∀ c ∈ "compilation".toList, Json.isBare c := by
    unfold Json.isBare
    simp
  have key : Json.SpellsText ('"' :: ("compilation".toList ++ ['"']))
      (Text.ofCodes ("compilation".toList.map Char.toNat)) :=
    .quoted (Json.spellsCodes_bare bare)
  have unit : Json.SpellsUnit ['d', '8', '0', '0'] 0xd800 :=
    .digits (w := 13) (x := 8) (y := 0) (z := 0) ⟨by decide, by decide⟩ ⟨by decide, by decide⟩
      ⟨by decide, by decide⟩ ⟨by decide, by decide⟩
  have half : Json.SpellsCodes "\\ud800".toList [0xd800] :=
    .cons (.unit unit) .nil fun _ => by
      rintro ⟨_, _, _, none, -⟩
      cases none
  have value : Json.Spells 0 ([' '] ++ ('"' :: ("\\ud800".toList ++ ['"'])) ++ [])
      (.text (Text.ofCodes [0xd800])) :=
    .padded (List.forall_mem_singleton.2 rfl) (.text 0 (.quoted half)) (List.forall_mem_nil _)
  let field : Json.SpelledField :=
    ⟨"compilation", .text (Text.ofCodes [0xd800]), [], '"' :: ("compilation".toList ++ ['"']), [],
      [' '] ++ ('"' :: ("\\ud800".toList ++ ['"'])) ++ []⟩
  have named : field.IsNamed := ⟨List.forall_mem_nil _, key, List.forall_mem_nil _⟩
  exact .table (List.cons_ne_nil field []) (List.forall_mem_singleton.2 named)
    (List.forall_mem_singleton.2 value)

theorem not_isRead_halfPairText :
    HasText (artifactTree halfPairText) loadedRecord halfPairText ∧
      Json.Spells 1 halfPairText.toList (.table halfPairFields) ∧ IsDocument halfPairFields ∧
        ¬∃ a, (load (artifactTree halfPairText) loadedRecord).result = .ok a := by
  have text := hasText_artifactTree (show Text.IsShown halfPairText by decide)
  refine ⟨text, spells_halfPairText, nofun, ?_⟩
  have refused : Json.artifact halfPairText = .error .notJson := by cbv
  rw [text.exists_load_iff]
  rintro ⟨_, shown, -⟩
  cases refused.symm.trans (artifact_eq_ok_iff.2 shown)

end UsageArtifact

end UnusedDeps
