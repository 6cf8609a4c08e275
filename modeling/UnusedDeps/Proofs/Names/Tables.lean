import Mathlib.Data.List.Induction
import Mathlib.Data.List.Nodup
import UnusedDeps.Names.Ambiguity
import UnusedDeps.Proofs.Graph.WellFormed

/-!
# What the tables of names hold

A table is made of the dependencies of one kind, one at a time. Every dependency
with a library stands under its library name, and of those that share an alias
the last one stands under it. Main statement: what a table declares are the
names of the dependencies it was made of, with a library or without.
-/

namespace UnusedDeps

/-- The last dependency with a library that the compiler receives under an alias. -/
def lastUnderAlias (es : List Edge) (a : Value) : Option Edge :=
  (es.filter fun e => e.targetLib.isSome && e.externName.sameKey a).getLast?

theorem lastUnderAlias_append_singleton (es : List Edge) (e : Edge) (a : Value) :
    lastUnderAlias (es ++ [e]) a =
      if e.targetLib.isSome && e.externName.sameKey a then some e else lastUnderAlias es a := by
  unfold lastUnderAlias
  rw [List.filter_append]
  cases h : e.targetLib.isSome && e.externName.sameKey a <;> simp [h]

theorem of_lastUnderAlias {es : List Edge} {a : Value} {e : Edge}
    (h : lastUnderAlias es a = some e) :
    e ∈ es ∧ e.targetLib.isSome ∧ e.externName.sameKey a = true := by
  have hmem := List.mem_filter.1 (List.mem_of_getLast? h)
  rw [Bool.and_eq_true] at hmem
  exact hmem

theorem lastUnderAlias_congr (es : List Edge) {a b : Value} (h : a.sameKey b = true) :
    lastUnderAlias es a = lastUnderAlias es b := by
  have same (e : Edge) : e.externName.sameKey a = e.externName.sameKey b :=
    Bool.eq_iff_iff.2 ⟨fun ha => Value.sameKey_trans ha h,
      fun hb => Value.sameKey_trans hb (Value.sameKey_symm h)⟩
  simp only [lastUnderAlias, same]

namespace Edge

/-- Whether the library of a dependency has a library name. -/
def HasLibrary (e : Edge) (library : String) : Prop :=
  ∃ s, e.targetLib = some (.text s) ∧ Text.underscored s = library

/-- Whether a dependency can stand in a table: the library, where there is one, is named by a text
and received under a key. -/
def IsListable (e : Edge) : Prop :=
  ∀ v, e.targetLib = some v → v.IsText ∧ e.externName.key?.isSome

theorem isListable_of_isText {e : Edge} (received : e.externName.IsText)
    (library : ∀ v, e.targetLib = some v → v.IsText) : e.IsListable := by
  intro v hv
  obtain ⟨a, ha⟩ := received
  exact ⟨library v hv, by rw [ha]; rfl⟩

end Edge

namespace NameTable

/-- What a table says of the dependencies that it was made of. -/
structure Describes (es : List Edge) (t : NameTable) : Prop where
  byAlias : ∀ a, getByKey? t.byAlias a = (lastUnderAlias es a).map fun e => .text e.name
  aliased : ∀ p ∈ t.byAlias, ∃ e ∈ es, e.targetLib.isSome ∧ p.2 = .text e.name
  byLibrary : ∀ l v, v ∈ t.libraryNames l ↔ ∃ e ∈ es, e.HasLibrary l ∧ v = .text e.name
  libraries : (t.byLibrary.map (·.1)).Nodup
  nonLibrary : ∀ v, v ∈ t.nonLibrary ↔ ∃ e ∈ es, e.targetLib = none ∧ v = .text e.name
  textual : ∀ e ∈ es, ∀ v, e.targetLib = some v → v.IsText

theorem describes_empty : Describes [] empty where
  byAlias := fun _ => rfl
  aliased := fun _ h => absurd h List.not_mem_nil
  byLibrary := fun _ _ => by simp [libraryNames, empty, Mapping.get?]
  libraries := List.nodup_nil
  nonLibrary := fun _ => by simp [empty]
  textual := fun _ h => absurd h List.not_mem_nil

/-! ### One more dependency -/

theorem libraryNames_addLibrary (t : NameTable) (name externName : Value) (library l : String) :
    (t.addLibrary name externName library).libraryNames l =
      if library = l then insertKey (t.libraryNames l) name else t.libraryNames l := by
  unfold libraryNames addLibrary
  rw [Mapping.get?_set]
  split
  · rename_i h
    rw [h]
    rfl
  · rfl

theorem Describes.names_isText {es : List Edge} {t : NameTable} (h : t.Describes es) (l : String) :
    ∀ v ∈ t.libraryNames l, v.IsText := by
  intro v hv
  obtain ⟨e, -, -, rfl⟩ := (h.byLibrary l v).1 hv
  exact Value.isText_text _

/-- What one more dependency can do to a table. -/
theorem add_cases {t t' : NameTable} {e : Edge} (h : t.add e.declaredName = .ok t') :
    (e.targetLib = none ∧ t' = { t with nonLibrary := insertKey t.nonLibrary (.text e.name) }) ∨
    (∃ s, e.targetLib = some (.text s) ∧
      t' = t.addLibrary (.text e.name) e.externName (Text.underscored s)) := by
  obtain ⟨_, -, h⟩ := bind_eq_ok.1 h
  unfold Edge.declaredName at h
  cases hlib : e.targetLib with
  | none =>
    simp only [hlib] at h
    exact .inl ⟨rfl, (pure_eq_ok.1 h).symm⟩
  | some v =>
    cases v with
    | text s =>
      simp only [hlib] at h
      obtain ⟨_, -, h⟩ := bind_eq_ok.1 h
      exact .inr ⟨s, rfl, (pure_eq_ok.1 h).symm⟩
    | _ => simp only [hlib, reduceCtorEq, throw, throwThe, MonadExceptOf.throw] at h

theorem Describes.addNonLibrary {es : List Edge} {t : NameTable} {e : Edge} (h : t.Describes es)
    (hlib : e.targetLib = none) :
    Describes (es ++ [e]) { t with nonLibrary := insertKey t.nonLibrary (.text e.name) } where
  byAlias := fun a => by
    rw [lastUnderAlias_append_singleton, hlib]
    exact h.byAlias a
  aliased := fun p hp => by
    obtain ⟨f, hf, hrest⟩ := h.aliased p hp
    exact ⟨f, List.mem_append_left _ hf, hrest⟩
  byLibrary := fun l v => by
    have fresh : ¬e.HasLibrary l := fun ⟨s, hs, _⟩ => by simp [hlib] at hs
    have old := h.byLibrary l v
    simp only [libraryNames] at old ⊢
    simpa [or_and_right, exists_or, fresh] using old
  libraries := h.libraries
  nonLibrary := fun v => by
    have texts : ∀ w ∈ t.nonLibrary, w.IsText := fun w hw => by
      obtain ⟨f, -, -, rfl⟩ := (h.nonLibrary w).1 hw
      exact Value.isText_text _
    rw [mem_insertKey_of_isText texts (Value.isText_text _), h.nonLibrary v]
    simp [or_and_right, exists_or, hlib]
  textual := fun f hf v hv => by
    rcases List.mem_append.1 hf with hf | hf
    · exact h.textual f hf v hv
    · cases List.mem_singleton.1 hf
      simp [hlib] at hv

theorem Describes.addLibrary {es : List Edge} {t : NameTable} {e : Edge} {s : String}
    (h : t.Describes es) (hlib : e.targetLib = some (.text s)) :
    Describes (es ++ [e]) (t.addLibrary (.text e.name) e.externName (Text.underscored s)) where
  byAlias := fun a => by
    rw [lastUnderAlias_append_singleton, hlib]
    simp only [NameTable.addLibrary, getByKey?_setByKey, Option.isSome_some, Bool.true_and]
    split
    · rfl
    · exact h.byAlias a
  aliased := fun p hp => by
    rcases mem_setByKey hp with hp | hp
    · obtain ⟨f, hf, hrest⟩ := h.aliased p hp
      exact ⟨f, List.mem_append_left _ hf, hrest⟩
    · exact ⟨e, by simp, by simp [hlib], hp⟩
  byLibrary := fun l v => by
    have hl : e.HasLibrary l ↔ Text.underscored s = l := by
      constructor
      · rintro ⟨s', hs', hl⟩
        cases hlib.symm.trans hs'
        exact hl
      · exact fun hl => ⟨s, hlib, hl⟩
    rw [libraryNames_addLibrary]
    split
    · rename_i heq
      rw [mem_insertKey_of_isText (h.names_isText l) (Value.isText_text _), h.byLibrary l v]
      simp [or_and_right, exists_or, hl, heq]
    · rename_i hne
      simpa [or_and_right, exists_or, hl, hne] using h.byLibrary l v
  libraries := by
    rw [NameTable.addLibrary, Mapping.keys_set]
    split
    · exact h.libraries
    · rename_i fresh
      refine List.nodup_append.2 ⟨h.libraries, List.pairwise_singleton _ _, ?_⟩
      rintro k hk j hj rfl
      cases List.mem_singleton.1 hj
      exact fresh hk
  nonLibrary := fun v => by
    simpa [or_and_right, exists_or, hlib, NameTable.addLibrary] using h.nonLibrary v
  textual := fun f hf v hv => by
    rcases List.mem_append.1 hf with hf | hf
    · exact h.textual f hf v hv
    · cases List.mem_singleton.1 hf
      cases hlib.symm.trans hv
      exact Value.isText_text _

theorem Describes.add {es : List Edge} {t t' : NameTable} {e : Edge} (h : t.Describes es)
    (hadd : t.add e.declaredName = .ok t') : t'.Describes (es ++ [e]) := by
  rcases add_cases hadd with ⟨hlib, rfl⟩ | ⟨s, hlib, rfl⟩
  · exact h.addNonLibrary hlib
  · exact h.addLibrary hlib

/-! ### Whole tables -/

theorem ofNames_append_singleton {es : List Edge} {e : Edge} {t : NameTable} :
    ofNames ((es ++ [e]).map Edge.declaredName) = .ok t ↔
      ∃ u, ofNames (es.map Edge.declaredName) = .ok u ∧ u.add e.declaredName = .ok t := by
  unfold ofNames
  rw [List.map_append, List.foldlM_append, bind_eq_ok]
  simp [List.foldlM_cons]

theorem describes_ofNames {es : List Edge} {t : NameTable}
    (h : ofNames (es.map Edge.declaredName) = .ok t) : t.Describes es := by
  induction es using List.reverseRecOn generalizing t with
  | nil => exact Except.ok.inj h ▸ describes_empty
  | append_singleton es e ih =>
    obtain ⟨u, hu, hadd⟩ := ofNames_append_singleton.1 h
    exact (ih hu).add hadd

theorem add_isOk_iff {e : Edge} (t : NameTable) :
    (∃ t', t.add e.declaredName = .ok t') ↔ e.IsListable := by
  unfold add Edge.declaredName Edge.IsListable
  cases e.targetLib with
  | none =>
    simp only [reduceCtorEq, false_imp_iff, implies_true, iff_true]
    exact ⟨_, rfl⟩
  | some v =>
    cases v with
    | text s =>
      cases e.externName.key? with
      | none => simp [bind_eq_ok, orWrongType]
      | some k => simp [bind_eq_ok, orWrongType, key?_text, Value.isText_text]
    | _ => simp [bind_eq_ok, throw, throwThe, MonadExceptOf.throw, Value.IsText]

theorem ofNames_isOk_iff {es : List Edge} :
    (∃ t, ofNames (es.map Edge.declaredName) = .ok t) ↔ ∀ e ∈ es, e.IsListable := by
  induction es using List.reverseRecOn with
  | nil => exact ⟨fun _ _ h => absurd h List.not_mem_nil, fun _ => ⟨empty, rfl⟩⟩
  | append_singleton es e ih =>
    simp only [ofNames_append_singleton, List.forall_mem_append, List.forall_mem_singleton, ← ih]
    constructor
    · rintro ⟨t, u, hu, hadd⟩
      exact ⟨⟨u, hu⟩, (add_isOk_iff u).1 ⟨t, hadd⟩⟩
    · rintro ⟨⟨u, hu⟩, he⟩
      obtain ⟨t, ht⟩ := (add_isOk_iff u).2 he
      exact ⟨t, u, hu, ht⟩

theorem Describes.mem_flatMap {es : List Edge} {t : NameTable} (h : t.Describes es) (v : Value) :
    v ∈ t.byLibrary.flatMap (·.2) ↔ ∃ l, v ∈ t.libraryNames l := by
  rw [List.mem_flatMap]
  constructor
  · rintro ⟨⟨l, vs⟩, hmem, hv⟩
    have hfind : Mapping.get? t.byLibrary l = some vs := by
      obtain ⟨e, he⟩ := Option.isSome_iff_exists.1
        (List.find?_isSome.2 ⟨(l, vs), hmem, by simp⟩ :
          (t.byLibrary.find? fun e => decide (e.1 = l)).isSome)
      have hkey : e.1 = l := by simpa using List.find?_some he
      have hsame : e = (l, vs) :=
        List.inj_on_of_nodup_map h.libraries (List.mem_of_find?_eq_some he) hmem hkey
      rw [Mapping.get?, he, hsame]
      rfl
    exact ⟨l, by rw [libraryNames, hfind]; exact hv⟩
  · rintro ⟨l, hv⟩
    cases hfind : t.byLibrary.find? fun e => decide (e.1 = l) with
    | none => simp [libraryNames, Mapping.get?, hfind] at hv
    | some e =>
      exact ⟨e, List.mem_of_find?_eq_some hfind,
        by simpa [libraryNames, Mapping.get?, hfind] using hv⟩

theorem Describes.byLibrary_isText {es : List Edge} {t : NameTable} (h : t.Describes es) :
    ∀ e ∈ t.byLibrary, ∀ v ∈ e.2, v.IsText := by
  intro e he v hv
  obtain ⟨l, hl⟩ := (h.mem_flatMap v).1 (List.mem_flatMap.2 ⟨e, he, hv⟩)
  exact h.names_isText l v hl

theorem Describes.mem_values {es : List Edge} {t : NameTable} (h : t.Describes es) (v : Value) :
    v ∈ t.byAlias.map (·.2) ++ t.byLibrary.flatMap (·.2) ++ t.nonLibrary ↔
      ∃ e ∈ es, v = .text e.name := by
  rw [List.mem_append, List.mem_append, h.mem_flatMap, h.nonLibrary, List.mem_map]
  constructor
  · rintro ((⟨p, hp, rfl⟩ | ⟨l, hl⟩) | ⟨e, he, -, hv⟩)
    · obtain ⟨e, he, -, hname⟩ := h.aliased p hp
      exact ⟨e, he, hname⟩
    · obtain ⟨e, he, -, hv⟩ := (h.byLibrary l v).1 hl
      exact ⟨e, he, hv⟩
    · exact ⟨e, he, hv⟩
  · rintro ⟨e, he, hv⟩
    cases hlib : e.targetLib with
    | none => exact .inr ⟨e, he, hlib, hv⟩
    | some w =>
      obtain ⟨s, rfl⟩ := h.textual e he w hlib
      exact .inl (.inr ⟨_, (h.byLibrary _ v).2 ⟨e, he, ⟨s, hlib, rfl⟩, hv⟩⟩)

/-- A table declares the names of the dependencies that it was made of, and nothing else. -/
theorem Describes.mem_declared {es : List Edge} {t : NameTable} (h : t.Describes es) (v : Value) :
    v ∈ t.declared ↔ ∃ e ∈ es, v = .text e.name := by
  have texts : ∀ w ∈ t.byAlias.map (·.2) ++ t.byLibrary.flatMap (·.2) ++ t.nonLibrary,
      w.IsText := fun w hw => by
    obtain ⟨e, -, rfl⟩ := (h.mem_values w).1 hw
    exact Value.isText_text _
  rw [declared, mem_distinctKeys texts, h.mem_values]

theorem Describes.declared_isText {es : List Edge} {t : NameTable} (h : t.Describes es) :
    ∀ v ∈ t.declared, v.IsText := by
  intro v hv
  obtain ⟨e, -, rfl⟩ := (h.mem_declared v).1 hv
  exact Value.isText_text _

end NameTable

end UnusedDeps
