import Mathlib.Data.Set.List
import UnusedDeps.Ignore.Table
import UnusedDeps.Proofs.Mapping
import UnusedDeps.Proofs.Schema

/-!
# The grammar of ignore tables

The metadata of a package is accepted exactly when all its keys are texts of
characters and the value under its own key, if there is one, has the shape of the
grammar: a table with no name but `ignore`, in it a table whose names are
dependency kinds, and beside each kind an array of texts. What is read from it
holds exactly the elements of the arrays, so neither the order of names nor the
order or repetition of elements matters. Everything else is a fault of the
metadata. Main statement: `ofMetadata_grammar`.
-/

namespace UnusedDeps

/-- Whether every key of the metadata is a text, and one of characters. -/
def Metadata.HasTextKeys (m : Metadata) : Prop :=
  m.strays = [] ∧ ∀ name ∈ m.fields.map (·.1), Text.hasHalfPair name = false

namespace Value

/-- Whether two values are the same, lists with the same elements, or tables with the same names and
such values beside them. -/
inductive Alike : Value → Value → Prop where
  | same (v : Value) : Alike v v
  | lists {xs ys : List Value} (h : ∀ v, v ∈ xs ↔ v ∈ ys) : Alike (.list xs) (.list ys)
  | tables {fs gs : Fields} (names : ∀ name, name ∈ fs.map (·.1) ↔ name ∈ gs.map (·.1))
      (values : ∀ name v w, Mapping.get? fs name = some v → Mapping.get? gs name = some w →
        Alike v w) :
      Alike (.table fs) (.table gs)

theorem Alike.symm {v w : Value} (h : Alike v w) : Alike w v := by
  induction h with
  | same v => exact .same v
  | lists h => exact .lists fun v => (h v).symm
  | tables names _ ih =>
    exact .tables (fun name => (names name).symm) fun name v w hv hw => ih name w v hw hv

theorem Alike.mem_keys_iff {fs gs : Fields} (h : Alike (.table fs) (.table gs)) (name : String) :
    name ∈ fs.map (·.1) ↔ name ∈ gs.map (·.1) := by
  cases h with
  | same => exact Iff.rfl
  | tables names _ => exact names name

theorem Alike.exists_of_table {fs : Fields} {w : Value} (h : Alike (.table fs) w) :
    ∃ gs, w = .table gs := by
  cases h with
  | same => exact ⟨fs, rfl⟩
  | tables => exact ⟨_, rfl⟩

theorem Alike.exists_of_get? {fs gs : Fields} (h : Alike (.table fs) (.table gs)) {name : String}
    {v : Value} (hv : Mapping.get? fs name = some v) :
    ∃ w, Mapping.get? gs name = some w ∧ Alike v w := by
  cases h with
  | same => exact ⟨v, hv, .same v⟩
  | tables names values =>
    obtain ⟨w, hw⟩ := Mapping.exists_get?_iff.2 ((names name).1 (Mapping.mem_keys_of_get? hv))
    exact ⟨w, hw, values name v w hv hw⟩

theorem Alike.exists_of_list {xs : List Value} {w : Value} (h : Alike (.list xs) w) :
    ∃ ys, w = .list ys ∧ ∀ v, v ∈ xs ↔ v ∈ ys := by
  cases h with
  | same => exact ⟨xs, rfl, fun v => Iff.rfl⟩
  | @lists _ ys same => exact ⟨ys, rfl, same⟩

/-- An array of texts. -/
def IsTextArray (v : Value) : Prop := ∃ items, v = .list items ∧ ∀ item ∈ items, ∃ s, item = .text s

theorem isTextArray_iff {v : Value} :
    v.IsTextArray ↔ ∃ texts : List String, v = .list (texts.map .text) := by
  constructor
  · rintro ⟨items, rfl, h⟩
    have texts : items ∈ Set.range (List.map Value.text) := by
      rw [Set.range_list_map]
      exact fun item hitem => (h item hitem).imp fun s hs => hs.symm
    obtain ⟨texts, rfl⟩ := texts
    exact ⟨texts, rfl⟩
  · rintro ⟨texts, rfl⟩
    exact ⟨_, rfl, by simp⟩

end Value

namespace IgnoreTable

/-! ### The grammar -/

/-- An ignore table: its names are dependency kinds, each with an array of texts. -/
def IsIgnoreTable (fields : Fields) : Prop :=
  ∀ name v, Mapping.get? fields name = some v →
    (∃ kind : DependencyKind, kind.text = name) ∧ v.IsTextArray

/-- The table under the own key: it has no name but `ignore`, with an ignore table. -/
def IsOwnTable (fields : Fields) : Prop :=
  ∀ name v, Mapping.get? fields name = some v →
    name = "ignore" ∧ ∃ inner, v = .table inner ∧ IsIgnoreTable inner

/-- Metadata in which the own key, if it is there, has a table of the grammar. -/
def IsWellFormed (fields : Fields) : Prop :=
  ∀ v, Mapping.get? fields ownKey = some v → ∃ own, v = .table own ∧ IsOwnTable own

/-- Whether a name is an element of the array that the metadata gives for a kind. -/
def Lists (fields : Fields) (kind : DependencyKind) (name : String) : Prop :=
  ∃ own inner items, Mapping.get? fields ownKey = some (.table own) ∧
    Mapping.get? own "ignore" = some (.table inner) ∧
    Mapping.get? inner kind.text = some (.list items) ∧ .text name ∈ items

/-- Two results that ignore the same dependencies, or two failures. -/
inductive SameResult : Except Problem (Option IgnoreTable) → Except Problem (Option IgnoreTable) →
    Prop where
  | tables {t t' : IgnoreTable} (h : ∀ kind name, t.contains kind name = t'.contains kind name) :
      SameResult (.ok (some t)) (.ok (some t'))
  | failures {p p' : Problem} : SameResult (.error p) (.error p')

theorem contains_text_iff {t : IgnoreTable} {kind : DependencyKind} {name : String} :
    t.contains kind (.text name) = true ↔ name ∈ t.names kind := by
  simp only [contains, key?_text, List.any_eq_true, decide_eq_true_eq, Option.some.injEq,
    Key.text.injEq]
  exact ⟨fun ⟨n, hn, same⟩ => same ▸ hn, fun h => ⟨name, h, rfl⟩⟩

theorem contains_eq_of_names {t t' : IgnoreTable} {kind : DependencyKind}
    (h : ∀ name, name ∈ t.names kind ↔ name ∈ t'.names kind) (name : Value) :
    t.contains kind name = t'.contains kind name := by
  rw [Bool.eq_iff_iff, contains, contains, List.any_eq_true, List.any_eq_true]
  simp only [h]

/-! ### The array of a kind -/

/-- Whether texts are those of an array, or there is no array and there are none. -/
def IsArray (v : Option Value) (texts : List String) : Prop :=
  (v = none ∧ texts = []) ∨ v = some (.list (texts.map .text))

theorem readNames_eq_ok {fields : Fields} {kind : DependencyKind} {texts : List String} :
    readNames fields kind = .ok texts ↔ IsArray (Mapping.get? fields kind.text) texts := by
  rw [readNames, Read.optional_eq_ok]
  simp only [Read.listOr_eq_ok, Read.forall₂_text_iff]
  constructor
  · rintro (⟨absent, rfl⟩ | ⟨_, given, _, rfl, rfl⟩)
    · exact Or.inl ⟨absent, rfl⟩
    · exact Or.inr given
  · rintro (⟨absent, rfl⟩ | given)
    · exact Or.inl ⟨absent, rfl⟩
    · exact Or.inr ⟨_, given, _, rfl, rfl⟩

theorem mem_iff_of_isArray {v : Option Value} {texts : List String} (h : IsArray v texts)
    {name : String} : name ∈ texts ↔ ∃ items, v = some (.list items) ∧ .text name ∈ items := by
  rcases h with ⟨rfl, rfl⟩ | rfl
  · simp
  · simp

/-! ### Ignore tables -/

theorem hasHalfPair_kind (kind : DependencyKind) : Text.hasHalfPair kind.text = false := by
  cases kind <;> decide +kernel

theorem mem_kinds_iff {name : String} :
    name ∈ DependencyKind.all.map (·.text) ↔ ∃ kind : DependencyKind, kind.text = name := by
  rw [List.mem_map]
  exact ⟨fun ⟨kind, _, h⟩ => ⟨kind, h⟩, fun ⟨kind, h⟩ => ⟨kind, kind.mem_all, h⟩⟩

theorem read_eq_ok {fields : Fields} {t : IgnoreTable} :
    read fields = .ok t ↔
      (∀ kind : DependencyKind, IsArray (Mapping.get? fields kind.text) (t.names kind)) ∧
        ∀ name ∈ fields.map (·.1), ∃ kind : DependencyKind, kind.text = name := by
  simp only [read, Read.named_eq_ok, Checked.map_eq_ok, Checked.both_eq_ok, Checked.apply_eq_ok,
    Read.onlyNames_eq_ok, mem_kinds_iff, readNames_eq_ok, Except.ok.injEq, Prod.exists,
    exists_const, exists_eq_right]
  constructor
  · rintro ⟨-, ⟨_, build, ⟨_, development, ⟨_, normal, rfl, hn, rfl⟩, hd, rfl⟩, hb, rfl⟩, only⟩
    refine ⟨fun kind => ?_, only⟩
    cases kind with
    | normal => exact hn
    | development => exact hd
    | build => exact hb
  · rintro ⟨arrays, only⟩
    refine ⟨fun name hname => ?_, ⟨_, t.build, ⟨_, t.development, ⟨_, t.normal, rfl,
      arrays .normal, rfl⟩, arrays .development, rfl⟩, arrays .build, rfl⟩, only⟩
    obtain ⟨kind, rfl⟩ := only name hname
    exact hasHalfPair_kind kind

theorem exists_read_iff {fields : Fields} : (∃ t, read fields = .ok t) ↔ IsIgnoreTable fields := by
  simp only [read_eq_ok]
  constructor
  · rintro ⟨t, arrays, only⟩ name v given
    obtain ⟨kind, rfl⟩ := only name (Mapping.mem_keys_of_get? given)
    have array := arrays kind
    rw [given] at array
    rcases array with ⟨absent, -⟩ | h
    · cases absent
    · exact ⟨⟨kind, rfl⟩, Value.isTextArray_iff.2 ⟨_, Option.some.inj h⟩⟩
  · intro h
    have array : ∀ kind : DependencyKind,
        ∃ texts, IsArray (Mapping.get? fields kind.text) texts := by
      intro kind
      cases given : Mapping.get? fields kind.text with
      | none => exact ⟨[], Or.inl ⟨rfl, rfl⟩⟩
      | some v =>
        obtain ⟨texts, rfl⟩ := Value.isTextArray_iff.1 (h _ v given).2
        exact ⟨texts, Or.inr rfl⟩
    choose texts arrays using array
    refine ⟨⟨texts .normal, texts .development, texts .build⟩, fun kind => ?_, fun name hname => ?_⟩
    · cases kind with
      | normal => exact arrays .normal
      | development => exact arrays .development
      | build => exact arrays .build
    · obtain ⟨v, given⟩ := Mapping.exists_get?_iff.2 hname
      exact (h name v given).1

/-! ### The table under the own key -/

theorem readOwner_eq_ok {fields : Fields} {t : IgnoreTable} :
    readOwner fields = .ok t ↔
      Read.optional fields "ignore" empty (Read.table read) = .ok t ∧
        ∀ name ∈ fields.map (·.1), name = "ignore" := by
  simp only [readOwner, Read.named_eq_ok, Checked.map_eq_ok, Checked.both_eq_ok,
    Read.onlyNames_eq_ok, List.mem_singleton, Prod.exists, exists_const, exists_eq_right]
  -- A name that holds half of a pair is not "ignore", so that check refuses nothing more.
  refine ⟨fun h => h.2, fun h => ⟨fun name hname => ?_, h⟩⟩
  rw [h.2 name hname]
  decide +kernel

theorem exists_readOwner_iff {fields : Fields} :
    (∃ t, readOwner fields = .ok t) ↔ IsOwnTable fields := by
  simp only [readOwner_eq_ok, exists_and_right, Read.exists_optional_table_iff, exists_read_iff]
  constructor
  · rintro ⟨tables, only⟩ name v given
    have hname := only name (Mapping.mem_keys_of_get? given)
    exact ⟨hname, tables v (hname ▸ given)⟩
  · intro h
    refine ⟨fun v given => (h _ v given).2, fun name hname => ?_⟩
    obtain ⟨v, given⟩ := Mapping.exists_get?_iff.2 hname
    exact (h name v given).1

section

variable {fields : Fields} (other : ownKeyAsName ∉ fields.map (·.1))
include other

theorem readOwn_eq : readOwn fields = Read.optional fields ownKey empty (Read.table readOwner) := by
  have absent : Mapping.get? fields ownKeyAsName = none := Mapping.get?_eq_none_iff.2 other
  rw [readOwn]
  split
  · rfl
  · rename_i own
    rw [Option.not_isSome_iff_eq_none] at own
    rw [Read.optional, absent, Read.optional, own]

theorem exists_readOwn_iff : (∃ t, readOwn fields = .ok t) ↔ IsWellFormed fields := by
  rw [readOwn_eq other, Read.exists_optional_table_iff]
  simp only [exists_readOwner_iff]
  rfl

theorem mem_names_iff_lists {t : IgnoreTable} (h : readOwn fields = .ok t) (kind : DependencyKind)
    (name : String) : name ∈ t.names kind ↔ Lists fields kind name := by
  have unnamed : name ∉ empty.names kind := by cases kind <;> exact List.not_mem_nil
  rw [readOwn_eq other, Read.optional_table_eq_ok] at h
  rcases h with ⟨absent, rfl⟩ | ⟨own, given, h⟩
  · refine ⟨fun hn => absurd hn unnamed, ?_⟩
    rintro ⟨own, inner, items, given, -⟩
    rw [absent] at given
    cases given
  rcases Read.optional_table_eq_ok.1 (readOwner_eq_ok.1 h).1 with ⟨absent, rfl⟩ | ⟨inner, below, h⟩
  · refine ⟨fun hn => absurd hn unnamed, ?_⟩
    rintro ⟨own', inner, items, given', below, -⟩
    rw [given] at given'
    cases given'
    rw [absent] at below
    cases below
  rw [mem_iff_of_isArray ((read_eq_ok.1 h).1 kind)]
  constructor
  · rintro ⟨items, array, hn⟩
    exact ⟨own, inner, items, given, below, array, hn⟩
  · rintro ⟨own', inner', items, given', below', array, hn⟩
    rw [given] at given'
    cases given'
    rw [below] at below'
    cases below'
    exact ⟨items, array, hn⟩

end

/-! ### Metadata -/

theorem readMetadata_eq_ok {m : Metadata} {t : IgnoreTable} :
    readMetadata m = .ok t ↔ m.HasTextKeys ∧ readOwn m.fields = .ok t := by
  have strays : onlyTexts m = .ok () ↔ m.strays = [] := by
    rw [onlyTexts]
    split
    · rename_i h
      exact ⟨fun _ => List.isEmpty_iff.1 h, fun _ => rfl⟩
    · rename_i h
      exact ⟨nofun, fun none => absurd (List.isEmpty_iff.2 none) h⟩
  simp only [readMetadata, Read.named_eq_ok, Checked.map_eq_ok, Checked.both_eq_ok, Prod.exists,
    strays, Metadata.HasTextKeys, exists_const, exists_eq_right]
  tauto

theorem ofMetadata_eq_ok {m : Metadata} {manifest : Option Path} {t : IgnoreTable} :
    ofMetadata (some m) manifest = .ok (some t) ↔ readMetadata m = .ok t := by
  rw [ofMetadata]
  cases readMetadata m <;> simp

theorem ofMetadata_cases (m : Metadata) (manifest : Option Path) :
    (∃ t, ofMetadata (some m) manifest = .ok (some t)) ∨
      ∃ faults, ofMetadata (some m) manifest = .error (.invalidMetadata manifest faults) := by
  rw [ofMetadata]
  cases readMetadata m with
  | ok t => exact Or.inl ⟨t, rfl⟩
  | error faults => exact Or.inr ⟨faults, rfl⟩

/-! ### Order and repetition -/

section

variable {fs gs : Fields} (alike : Value.Alike (.table fs) (.table gs))
include alike

theorem IsIgnoreTable.of_alike (h : IsIgnoreTable fs) : IsIgnoreTable gs := by
  intro name w hw
  obtain ⟨v, hv, below⟩ := alike.symm.exists_of_get? hw
  obtain ⟨kind, items, rfl, texts⟩ := h name v hv
  obtain ⟨items', rfl, same⟩ := below.symm.exists_of_list
  exact ⟨kind, items', rfl, fun item hitem => texts item ((same item).2 hitem)⟩

theorem IsOwnTable.of_alike (h : IsOwnTable fs) : IsOwnTable gs := by
  intro name w hw
  obtain ⟨v, hv, below⟩ := alike.symm.exists_of_get? hw
  obtain ⟨hname, inner, rfl, table⟩ := h name v hv
  obtain ⟨inner', rfl⟩ := below.symm.exists_of_table
  exact ⟨hname, inner', rfl, table.of_alike below.symm⟩

theorem IsWellFormed.of_alike (h : IsWellFormed fs) : IsWellFormed gs := by
  intro w hw
  obtain ⟨v, hv, below⟩ := alike.symm.exists_of_get? hw
  obtain ⟨own, rfl, table⟩ := h v hv
  obtain ⟨own', rfl⟩ := below.symm.exists_of_table
  exact ⟨own', rfl, table.of_alike below.symm⟩

theorem Lists.of_alike {kind : DependencyKind} {name : String} (h : Lists fs kind name) :
    Lists gs kind name := by
  obtain ⟨own, inner, items, hown, hinner, hitems, hname⟩ := h
  obtain ⟨_, hown', owns⟩ := alike.exists_of_get? hown
  obtain ⟨own', rfl⟩ := owns.exists_of_table
  obtain ⟨_, hinner', inners⟩ := owns.exists_of_get? hinner
  obtain ⟨inner', rfl⟩ := inners.exists_of_table
  obtain ⟨_, hitems', arrays⟩ := inners.exists_of_get? hitems
  obtain ⟨items', rfl, same⟩ := arrays.exists_of_list
  exact ⟨own', inner', items', hown', hinner', hitems', (same _).1 hname⟩

end

/-! ### Every metadata -/

theorem exists_ofMetadata_iff {m : Metadata} {manifest : Option Path}
    (other : ownKeyAsName ∉ m.fields.map (·.1)) :
    (∃ t, ofMetadata (some m) manifest = .ok (some t)) ↔ m.HasTextKeys ∧ IsWellFormed m.fields := by
  simp only [ofMetadata_eq_ok, readMetadata_eq_ok, exists_and_left, exists_readOwn_iff other]

theorem contains_iff_lists {m : Metadata} {manifest : Option Path} {t : IgnoreTable}
    (other : ownKeyAsName ∉ m.fields.map (·.1))
    (h : ofMetadata (some m) manifest = .ok (some t)) (kind : DependencyKind) (name : String) :
    t.contains kind (.text name) = true ↔ Lists m.fields kind name :=
  contains_text_iff.trans
    (mem_names_iff_lists other (readMetadata_eq_ok.1 (ofMetadata_eq_ok.1 h)).2 kind name)

theorem sameResult_of_alike {m : Metadata} {fields : Fields} {manifest : Option Path}
    (other : ownKeyAsName ∉ m.fields.map (·.1))
    (alike : Value.Alike (.table m.fields) (.table fields)) :
    SameResult (ofMetadata (some m) manifest)
      (ofMetadata (some { m with fields := fields }) manifest) := by
  have other' : ownKeyAsName ∉ fields.map (·.1) := fun h => other ((alike.mem_keys_iff _).2 h)
  have keys : m.HasTextKeys ↔ Metadata.HasTextKeys { m with fields := fields } := by
    simp only [Metadata.HasTextKeys, alike.mem_keys_iff]
  have shapes : IsWellFormed m.fields ↔ IsWellFormed fields :=
    ⟨.of_alike alike, .of_alike alike.symm⟩
  have accepted : (∃ t, ofMetadata (some m) manifest = .ok (some t)) ↔
      ∃ t, ofMetadata (some { m with fields := fields }) manifest = .ok (some t) := by
    rw [exists_ofMetadata_iff other, exists_ofMetadata_iff other', keys, shapes]
  rcases ofMetadata_cases m manifest with ⟨t, ht⟩ | ⟨faults, hf⟩
  · obtain ⟨t', ht'⟩ := accepted.1 ⟨t, ht⟩
    rw [ht, ht']
    refine .tables fun kind => contains_eq_of_names fun name => ?_
    rw [← contains_text_iff, ← contains_text_iff, contains_iff_lists other ht,
      contains_iff_lists other' ht']
    exact ⟨.of_alike alike, .of_alike alike.symm⟩
  · rcases ofMetadata_cases { m with fields := fields } manifest with given | ⟨faults', hf'⟩
    · obtain ⟨t, ht⟩ := accepted.2 given
      rw [hf] at ht
      cases ht
    · rw [hf, hf']
      exact .failures

/-- Metadata without the other spelling of the own key is read by the grammar. -/
theorem ofMetadata_grammar (m : Metadata) (manifest : Option Path)
    (other : ownKeyAsName ∉ m.fields.map (·.1)) :
    ((∃ t, ofMetadata (some m) manifest = .ok (some t)) ↔
        m.HasTextKeys ∧ IsWellFormed m.fields) ∧
      (∀ t, ofMetadata (some m) manifest = .ok (some t) → ∀ kind name,
        t.contains kind (.text name) = true ↔ Lists m.fields kind name) ∧
      (¬(m.HasTextKeys ∧ IsWellFormed m.fields) → ∃ faults,
        ofMetadata (some m) manifest = .error (.invalidMetadata manifest faults)) ∧
      ∀ fields, Value.Alike (.table m.fields) (.table fields) →
        SameResult (ofMetadata (some m) manifest)
          (ofMetadata (some { m with fields := fields }) manifest) := by
  have accepted : (∃ t, ofMetadata (some m) manifest = .ok (some t)) ↔
      m.HasTextKeys ∧ IsWellFormed m.fields := exists_ofMetadata_iff other
  refine ⟨accepted, fun t ht => contains_iff_lists other ht, fun refused => ?_,
    fun fields => sameResult_of_alike other⟩
  exact (ofMetadata_cases m manifest).resolve_left fun given => refused (accepted.1 given)

/-- Metadata with a key of another tool and an ignore table that repeats a name. -/
def documented : Metadata :=
  .ofFields [("docs", .bool true), (ownKey, .table [("ignore", .table
    [("normal", .list ["serde", "log", "serde"]), ("build", .list [])])])]

theorem ofMetadata_documented :
    ofMetadata (some documented) none = .ok (some ⟨["serde", "log", "serde"], [], []⟩) :=
  rfl

theorem ofMetadata_grammar_documented :
    ∃ t, ofMetadata (some documented) none = .ok (some t) ∧
      (∀ kind name, t.contains kind (.text name) = true ↔ Lists documented.fields kind name) ∧
      IsWellFormed documented.fields := by
  have grammar := ofMetadata_grammar documented none (by decide)
  have accepted := grammar.1.1 ⟨_, ofMetadata_documented⟩
  exact ⟨_, ofMetadata_documented, grammar.2.1 _ ofMetadata_documented, accepted.2⟩

/-- Metadata of the grammar fails when a key of another tool holds half of a surrogate pair. -/
theorem not_accepted_iff_isWellFormed :
    ¬∀ (fields : Fields) (manifest : Option Path), ownKeyAsName ∉ fields.map (·.1) →
      ((∃ t, ofMetadata (some (.ofFields fields)) manifest = .ok (some t)) ↔
        IsWellFormed fields) := by
  intro accepts
  have key : Text.hasHalfPair (Text.ofCodes [0xd800]) = true := by
    rw [Text.hasHalfPair, Text.codes_ofCodes _ (by decide)]
    rfl
  have apart : ∀ name : String, Text.hasHalfPair name = false →
      name ∉ [(Text.ofCodes [0xd800], Value.null)].map (·.1) := by
    intro name whole mem
    rw [List.map_singleton, List.mem_singleton] at mem
    rw [mem, key] at whole
    cases whole
  obtain ⟨t, ht⟩ := (accepts [(Text.ofCodes [0xd800], .null)] none
    (apart ownKeyAsName (by decide +kernel))).2
    fun v given => absurd (Mapping.mem_keys_of_get? given) (apart ownKey (by decide +kernel))
  have whole := (readMetadata_eq_ok.1 (ofMetadata_eq_ok.1 ht)).1.2 _ List.mem_cons_self
  exact absurd (whole.symm.trans key) Bool.false_ne_true

end IgnoreTable

end UnusedDeps
