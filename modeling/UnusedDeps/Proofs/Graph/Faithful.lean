import UnusedDeps.Proofs.Cargo.Index
import UnusedDeps.Proofs.Failures.Demands
import UnusedDeps.Proofs.Files.Names
import UnusedDeps.Proofs.Graph.Coded
import UnusedDeps.Proofs.Graph.Shapes
import UnusedDeps.Proofs.Json.Cut
import UnusedDeps.Proofs.Json.Held

/-!
# Graphs of documents that were read

The texts of a document that was read from JSON come back from JSON, and with them
the identities and the directories of the packages. All that such a graph may lack
for an index are directories that have names, and different ones. Main statements:
`ids_of_document` and `isIndexable_of_document`.
-/

namespace UnusedDeps

/-! ### Texts of paths -/

namespace Text

/-- Whether characters are those that keep some code points. -/
def KeepsCodes (cs : List Char) : Prop :=
  ∃ ns : List Nat, (∀ n ∈ ns, n < 0x110000) ∧ ns.flatMap charsOf = cs

theorem isCoded_iff {s : String} : IsCoded s ↔ KeepsCodes s.toList := by
  refine exists_congr fun ns => and_congr_right fun _ => ?_
  rw [ofCodes, ← String.toList_inj, String.toList_ofList]

/-- A slash keeps its own code point. -/
theorem charsOf_of_slash_mem {n : Nat} (h : '/' ∈ charsOf n) : charsOf n = ['/'] := by
  unfold charsOf at h ⊢
  by_cases half : isHalfPair n = true
  · rw [if_pos half] at h
    simp only [isHalfPair, Bool.and_eq_true, decide_eq_true_eq] at half
    have valid : (halfPairOffset + n).isValidChar := by
      unfold halfPairOffset
      exact .inr ⟨by omega, by omega⟩
    have code := congrArg Char.toNat (List.mem_singleton.1 h)
    rw [toNat_ofNat_of_isValidChar valid] at code
    have slash : '/'.toNat = 0x2f := rfl
    have offset : halfPairOffset = 0x100000 := rfl
    omega
  · rw [if_neg half] at h ⊢
    split at h
    · rename_i marked
      simp only [List.mem_cons, List.not_mem_nil, or_false] at h
      rcases h with h | h
      · exact absurd h (by decide)
      · rw [← h] at marked
        exact absurd marked (by decide)
    · rename_i plain
      rw [if_neg plain, ← List.mem_singleton.1 h]

/-- What code points of a kind keep is split at slashes, when the slash is of that kind. -/
theorem isSplitAtSlashes_kept {P : Nat → Prop} (kind : P 0x2f) :
    IsSplitAtSlashes fun cs => ∃ ns : List Nat, (∀ n ∈ ns, P n) ∧ ns.flatMap charsOf = cs where
  nil := ⟨[], List.forall_mem_nil _, rfl⟩
  append := by
    intro cs ds
    constructor
    · rintro ⟨ns, all, split⟩
      induction ns generalizing cs with
      | nil => simp at split
      | cons n ns ih =>
        rw [List.forall_mem_cons] at all
        rw [List.flatMap_cons] at split
        rcases Json.append_eq_append_cons split with ⟨s, hn⟩ | ⟨cs', rfl, rest⟩
        · have single : charsOf n = ['/'] := charsOf_of_slash_mem (by simp [hn])
          rw [single] at hn split
          cases cs with
          | nil => exact ⟨⟨[], List.forall_mem_nil _, rfl⟩, ns, all.2, by simpa using split⟩
          | cons c cs => simp at hn
        · obtain ⟨⟨ms, hms, rfl⟩, keeps⟩ := ih _ all.2 rest
          exact ⟨⟨n :: ms, List.forall_mem_cons.2 ⟨all.1, hms⟩, List.flatMap_cons⟩, keeps⟩
    · rintro ⟨⟨ms, hms, rfl⟩, ns, hns, rfl⟩
      have slash : charsOf 0x2f = ['/'] := by decide
      refine ⟨ms ++ 0x2f :: ns, ?_, ?_⟩
      · rw [List.forall_mem_append, List.forall_mem_cons]
        exact ⟨hms, kind, hns⟩
      · rw [List.flatMap_append, List.flatMap_cons, slash, List.singleton_append]

theorem isSplitAtSlashes_keepsCodes : IsSplitAtSlashes KeepsCodes :=
  isSplitAtSlashes_kept (by decide)

/-- A text that can be the name of a file has no opening half of a pair, so it comes back from
JSON. -/
theorem isFaithful_of_isName {s : String} (coded : IsCoded s) (named : IsName s.toList) :
    IsFaithful s := by
  refine ⟨coded, List.Pairwise.isChain (List.pairwise_of_forall_mem_list ?_)⟩
  rintro m hm n - ⟨opens, -⟩
  have bytes := named.1 m hm
  simp only [opensPair, Bool.and_eq_true, decide_eq_true_eq] at opens
  unfold nameBytes? at bytes
  rw [if_neg (by simp [isHalfPair]; omega), if_neg (by simp; omega)] at bytes
  cases bytes

theorem isFaithful_of_isLow {s : String} (h : ∀ c ∈ s.toList, isLow c = true) : IsFaithful s := by
  have same : ofPlain s = s := by
    have chars := toList_ofPlain s.toList
    rwa [String.ofList_toList, kept_of_isLow h, String.toList_inj] at chars
  exact same ▸ isFaithful_ofPlain s

end Text

namespace Path

section

variable [Whereabouts]

theorem forall_parts_resolve {P : String → Prop} {p : Path} (h : ∀ part ∈ p.parts, P part)
    (working : ∀ part ∈ workingDirectory.parts, P part) : ∀ part ∈ p.resolve.parts, P part := by
  intro part hpart
  have joined : part ∈ (workingDirectory.join p).parts :=
    (mem_of_mem_resolveParts [] _ hpart).resolve_left List.not_mem_nil
  unfold join at joined
  split at joined
  · exact (List.mem_append.1 joined).elim (working part) (h part)
  · exact h part joined

theorem fault?_workingDirectory : workingDirectory.fault? = none := fault?_ofText Whereabouts.sound

theorem fault?_resolve {p : Path} (h : p.fault? = none) : p.resolve.fault? = none :=
  fault?_eq_none_iff.2
    (forall_parts_resolve (fault?_eq_none_iff.1 h) (fault?_eq_none_iff.1 fault?_workingDirectory))

/-- The directory of a manifest comes back from JSON when it has a name. -/
theorem isFaithful_resolve_parent {s : String} (coded : Text.IsCoded s)
    (sound : (ofText s).parent.fault? = none) :
    Text.IsFaithful (ofText s).parent.resolve.text := by
  have working : ∀ part ∈ workingDirectory.parts, Text.KeepsCodes part.toList :=
    forall_parts_ofText Text.isSplitAtSlashes_keepsCodes
      (Text.isCoded_iff.1 (Text.isFaithful_ofPlain _).coded)
  have kept : ∀ part ∈ (ofText s).parent.parts, Text.KeepsCodes part.toList := fun part hpart =>
    forall_parts_ofText Text.isSplitAtSlashes_keepsCodes (Text.isCoded_iff.1 coded) part
      (List.dropLast_subset _ hpart)
  have dot : Text.KeepsCodes ".".toList := ⟨[0x2e], by decide, by decide⟩
  refine Text.isFaithful_of_isName (Text.isCoded_iff.2 ?_)
    (nameFault?_eq_none_iff.1 (fault?_resolve sound))
  exact (text_iff Text.isSplitAtSlashes_keepsCodes dot).2
    (forall_parts_resolve (P := fun part => Text.KeepsCodes part.toList) kept working)

end

end Path

/-! ### Entries of documents -/

/-- Whether the parts of a package entry's identity come back from JSON, and the path of its
manifest keeps code points. -/
structure PackageEntry.IsFaithful (p : PackageEntry) : Prop where
  name : ∀ v, p.name = some v → v.IsFaithfulText
  version : ∀ v, p.version = some v → v.IsFaithfulText
  source : ∀ v, p.source = some v → v.IsFaithfulText
  manifest : ∀ s, p.manifestPath = .given s → Text.IsCoded s

theorem PackageEntry.IsFaithful.identity [Whereabouts] {p : PackageEntry} (hp : p.IsFaithful)
    {id : PackageId} {manifest : Path} (h : p.identity = .ok (id, manifest)) :
    id.IsFaithful ∧ ∃ s, manifest = Path.ofText s ∧ Text.IsCoded s := by
  obtain ⟨hname, hversion, hmanifest, hsource⟩ := p.of_identity h
  refine ⟨⟨hp.name _ hname, hp.version _ hversion, ?_⟩, ?_⟩
  · rcases hsource with given | directory
    · exact hp.source _ given
    · refine directory ▸ ⟨_, rfl, Text.isFaithful_of_isLow fun c hc => ?_⟩
      exact decide_eq_true (Path.toNat_of_mem_localSource hc)
  · unfold PackageEntry.manifest at hmanifest
    split at hmanifest
    · rename_i s hs
      cases hmanifest
      exact ⟨s, rfl, hp.manifest s hs⟩
    · cases hmanifest
    · cases hmanifest

namespace Value

theorem HoldsFaithful.get? {fields : Fields} (h : (Value.table fields).HoldsFaithful)
    {name : String} {v : Value} (hv : Mapping.get? fields name = some v) : v.HoldsFaithful := by
  cases h with
  | table names h => exact h _ (Mapping.mem_of_get? hv)

theorem HoldsFaithful.of_mem_elements {v : Value} (h : v.HoldsFaithful) {items : List Value}
    (hitems : v.elements? = some items) {w : Value} (hw : w ∈ items) :
    w.IsText ∨ w.HoldsFaithful := by
  cases h with
  | list h =>
    cases hitems
    exact .inr (h w hw)
  | text h =>
    cases hitems
    obtain ⟨n, -, rfl⟩ := List.mem_map.1 hw
    exact .inl ⟨_, rfl⟩
  | table names h =>
    cases hitems
    obtain ⟨f, -, rfl⟩ := List.mem_map.1 hw
    exact .inl ⟨_, rfl⟩
  | _ => cases hitems

theorem HoldsFaithful.isFaithfulText {v : Value} (h : v.HoldsFaithful) (text : v.IsText) :
    v.IsFaithfulText := by
  obtain ⟨s, rfl⟩ := text
  cases h with
  | text h => exact ⟨s, rfl, h⟩

end Value

/-- The tables that are read as entries stand in the list. -/
theorem Field.exists_of_mem_entries {α : Type} {read : Fields → α} {v : Option Value} {a : α}
    (h : a ∈ (Field.ofOption (Field.entries read) v).listed.reduceOption)
    (hold : ∀ w, v = some w → w.HoldsFaithful) :
    ∃ fields, a = read fields ∧ (Value.table fields).HoldsFaithful := by
  cases v with
  | none => cases h
  | some w =>
    rw [Field.ofOption, Field.entries] at h
    cases hitems : w.elements? with
    | none =>
      rw [hitems] at h
      cases h
    | some items =>
      rw [hitems] at h
      obtain ⟨x, hx, ha⟩ := List.mem_map.1 (List.reduceOption_mem_iff.1 h)
      split at ha
      · rename_i fields
        cases ha
        refine ⟨fields, rfl, ?_⟩
        rcases (hold w rfl).of_mem_elements hitems hx with ⟨s, hs⟩ | faithful
        · cases hs
        · exact faithful
      · cases ha

theorem PackageEntry.isFaithful_ofFields {fields : Fields}
    (hold : (Value.table fields).HoldsFaithful) (shaped : (PackageEntry.ofFields fields).IsShaped) :
    (PackageEntry.ofFields fields).IsFaithful where
  name := fun v hv => (hold.get? hv).isFaithfulText (shaped.name v hv)
  version := fun v hv => (hold.get? hv).isFaithfulText (shaped.version v hv)
  source := fun v hv => (hold.get? (Option.filter_eq_some_iff.1 hv).1).isFaithfulText
    (shaped.source v hv)
  manifest := by
    intro s hs
    unfold PackageEntry.ofFields at hs
    dsimp only at hs
    cases hm : Mapping.get? fields "manifest_path" with
    | none =>
      rw [hm] at hs
      cases hs
    | some w =>
      rw [hm, Field.ofOption] at hs
      unfold Field.text at hs
      split at hs
      · cases hs
        obtain ⟨t, ht, faithful⟩ := (hold.get? hm).isFaithfulText ⟨s, rfl⟩
        cases ht
        exact faithful.coded
      · cases hs

/-- A document that was read from JSON has entries whose texts come back from JSON. -/
theorem ResolverDocument.isFaithful_of_holdsFaithful {v : Value} {doc : ResolverDocument}
    (hold : v.HoldsFaithful) (read : ofValue? v = some doc) (shaped : doc.IsShaped) :
    ∀ p ∈ doc.packageEntries, p.IsFaithful := by
  intro p hp
  have typed := shaped.packages.exists_eq.2 p hp
  cases v with
  | table fields =>
    cases read
    obtain ⟨entry, rfl, hentry⟩ := Field.exists_of_mem_entries hp fun w hw => hold.get? hw
    exact PackageEntry.isFaithful_ofFields hentry typed
  | _ => cases read

namespace Graph

section

variable [Whereabouts] {s : String} {v : Value} {g : Graph}
  (read : Json.document (Text.ofPlain s) = .ok v) (shaped : v.IsDocumentShaped)
  (h : (ofValue v).result = .ok g)

include read shaped h

theorem packages_of_document : ∀ p ∈ g.packages,
    p.id.IsFaithful ∧ ∃ t, p.manifestPath = Path.ofText t ∧ Text.IsCoded t := by
  obtain ⟨doc, hdoc, typed⟩ := ResolverDocument.isShaped_ofValue? shaped
  have faithful := ResolverDocument.isFaithful_of_holdsFaithful
    (Json.holdsFaithful_of_document read) hdoc typed
  have built : ofDocument doc = .ok g := by
    rwa [result_ofValue hdoc] at h
  intro p hp
  obtain ⟨e, he, hid⟩ := exists_entry_of_mem_packages built hp
  exact (faithful e he).identity hid

/-- The identities in the graph of a document that was read from JSON come back from JSON. -/
theorem ids_of_document : ∀ p ∈ g.packages, p.id.IsFaithful := fun p hp =>
  (packages_of_document read shaped h p hp).1

/-- The graph of a document that was read from JSON has an index when the directories of its
packages have different names. -/
theorem isIndexable_of_document (sound : ∀ p ∈ g.packages, p.manifestPath.parent.fault? = none)
    (distinct : (g.packages.map fun p => p.manifestPath.parent.resolve).Nodup) :
    g.IsIndexable where
  ids := ids_of_document read shaped h
  sound := sound
  texts := by
    intro p hp
    obtain ⟨-, t, ht, coded⟩ := packages_of_document read shaped h p hp
    have named := sound p hp
    rw [ht] at named ⊢
    exact Path.isFaithful_resolve_parent coded named
  distinct := distinct

end

end Graph

end UnusedDeps
