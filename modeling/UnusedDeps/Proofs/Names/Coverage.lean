import UnusedDeps.Proofs.Names.Collisions

/-!
# What a table says of its dependencies

A table answers which names are declared, which of them stand behind a library name, which
have no library, and which one an alias leads to. All but the last are answered by sets, so
the order in which the dependencies came does not matter. An alias leads to the last of the
dependencies that are received under it, so there the order matters exactly when two of them
have different names. Main statement: `NameTable.covers_ofNames`.
-/

namespace UnusedDeps

/-! ### Aliases -/

namespace Edge

/-- Whether the compiler receives the library of a dependency under an alias. -/
def IsReceivedAs (e : Edge) (a : Value) : Prop :=
  e.targetLib.isSome ∧ e.externName.sameKey a = true

end Edge

/-- Whether the compiler receives two dependencies with different names under one alias. -/
def IsContested (es : List Edge) (a : Value) : Prop :=
  ∃ e ∈ es, ∃ f ∈ es, (e.IsReceivedAs a ∧ f.IsReceivedAs a) ∧ e.name ≠ f.name

theorem isSome_lastUnderAlias_iff {es : List Edge} {a : Value} :
    (lastUnderAlias es a).isSome ↔ ∃ e ∈ es, e.IsReceivedAs a := by
  simp [lastUnderAlias, Edge.IsReceivedAs]

theorem isSome_lastUnderAlias_of_perm {es es' : List Edge} (perm : es.Perm es') (a : Value) :
    (lastUnderAlias es a).isSome = (lastUnderAlias es' a).isSome := by
  rw [Bool.eq_iff_iff, isSome_lastUnderAlias_iff, isSome_lastUnderAlias_iff]
  simp only [perm.mem_iff]

/-- The declared name that an alias leads to. -/
def nameUnderAlias (es : List Edge) (a : Value) : Option Value :=
  (lastUnderAlias es a).map fun e => .text e.name

/-- In whatever order dependencies come, an alias that is not contested leads to the same name. -/
theorem nameUnderAlias_of_perm {es es' : List Edge} (perm : es.Perm es') {a : Value}
    (agreed : ¬IsContested es a) : nameUnderAlias es a = nameUnderAlias es' a := by
  have same := isSome_lastUnderAlias_of_perm perm a
  unfold nameUnderAlias
  cases he : lastUnderAlias es a with
  | none =>
    rw [he, Option.isSome_none, eq_comm, Option.isSome_eq_false_iff,
      Option.isNone_iff_eq_none] at same
    rw [same]
  | some e =>
    rw [he, Option.isSome_some, eq_comm, Option.isSome_iff_exists] at same
    obtain ⟨f, hf⟩ := same
    obtain ⟨emem, ereceived⟩ := of_lastUnderAlias he
    obtain ⟨fmem, freceived⟩ := of_lastUnderAlias hf
    have names : e.name = f.name := by
      by_contra other
      exact agreed ⟨e, emem, f, perm.mem_iff.2 fmem, ⟨ereceived, freceived⟩, other⟩
    rw [hf, Option.map_some, Option.map_some, names]

/-- A contested alias leads to another name when the right dependency comes last. -/
theorem exists_perm_of_isContested {es : List Edge} {a : Value} (h : IsContested es a) :
    ∃ es', es.Perm es' ∧ nameUnderAlias es' a ≠ nameUnderAlias es a := by
  obtain ⟨e, he, f, hf, ⟨ereceived, freceived⟩, other⟩ := h
  obtain ⟨last, hlast⟩ := Option.isSome_iff_exists.1
    (isSome_lastUnderAlias_iff.2 ⟨e, he, ereceived⟩)
  -- One of the two is not the last one, and can be put behind all others.
  obtain ⟨g, hg, greceived, differs⟩ : ∃ g ∈ es, g.IsReceivedAs a ∧ g.name ≠ last.name := by
    by_cases heq : e.name = last.name
    · exact ⟨f, hf, freceived, fun hfl => other (heq.trans hfl.symm)⟩
    · exact ⟨e, he, ereceived, heq⟩
  refine ⟨es.erase g ++ [g],
    (List.perm_cons_erase hg).trans (List.perm_append_singleton g _).symm, ?_⟩
  have received : (g.targetLib.isSome && g.externName.sameKey a) = true :=
    (Bool.and_eq_true _ _).mpr greceived
  rw [nameUnderAlias, nameUnderAlias, lastUnderAlias_append_singleton, if_pos received, hlast]
  simpa using differs

/-! ### Keys of a table -/

namespace NameTable

/-- What holds of the keys of a table while dependencies are added. -/
structure IsKeyedBy (t : NameTable) (es : List Edge) : Prop where
  aliases : ∀ p ∈ t.byAlias, ∃ e ∈ es, e.targetLib.isSome ∧ e.externName = p.1
  aliasesApart : t.byAlias.Pairwise fun p q => p.1.sameKey q.1 = false
  libraries : ∀ l, l ∈ t.byLibrary.map (·.1) ↔ ∃ e ∈ es, e.HasLibrary l
  nonLibraryApart : t.nonLibrary.Pairwise fun v w => v.sameKey w = false

theorem isKeyedBy_empty : empty.IsKeyedBy [] where
  aliases := fun _ h => absurd h List.not_mem_nil
  aliasesApart := List.Pairwise.nil
  libraries := fun l => by simp [empty]
  nonLibraryApart := List.Pairwise.nil

theorem IsKeyedBy.add {t t' : NameTable} {es : List Edge} {e : Edge} (h : t.IsKeyedBy es)
    (hadd : t.add e.declaredName = .ok t') : t'.IsKeyedBy (es ++ [e]) := by
  rcases add_cases hadd with ⟨hlib, rfl⟩ | ⟨s, hlib, rfl⟩
  · have none (l : String) : ¬e.HasLibrary l := fun ⟨s, hs, _⟩ => by simp [hlib] at hs
    refine ⟨fun p hp => ?_, h.aliasesApart, fun l => ?_, pairwise_insertKey _ h.nonLibraryApart⟩
    · obtain ⟨f, hf, known⟩ := h.aliases p hp
      exact ⟨f, List.mem_append_left _ hf, known⟩
    · rw [h.libraries l]
      simp [or_and_right, exists_or, none]
  · have named (l : String) : e.HasLibrary l ↔ l = Text.underscored s := by
      simp [Edge.HasLibrary, hlib, eq_comm]
    refine ⟨fun p hp => ?_, pairwise_setByKey _ _ h.aliasesApart, fun l => ?_, h.nonLibraryApart⟩
    · rcases key_of_mem_setByKey hp with heq | ⟨q, hq, heq⟩
      · exact ⟨e, by simp, by simp [hlib], heq.symm⟩
      · obtain ⟨f, hf, hsome, hname⟩ := h.aliases q hq
        exact ⟨f, List.mem_append_left _ hf, hsome, hname.trans heq.symm⟩
    · rw [addLibrary, Mapping.mem_keys_set, h.libraries l]
      simp [or_and_right, exists_or, named, or_comm]

theorem isKeyedBy_ofNames {es : List Edge} {t : NameTable}
    (h : ofNames (es.map Edge.declaredName) = .ok t) : t.IsKeyedBy es := by
  induction es using List.reverseRecOn generalizing t with
  | nil => exact Except.ok.inj h ▸ isKeyedBy_empty
  | append_singleton es e ih =>
    obtain ⟨u, hu, hadd⟩ := ofNames_append_singleton.1 h
    exact (ih hu).add hadd

/-! ### What a table says -/

/-- Whether nothing stands twice in a table. -/
structure HoldsOnce (t : NameTable) : Prop where
  declared : t.declared.Nodup
  libraries : (t.byLibrary.map (·.1)).Nodup
  byLibrary : ∀ l, (t.libraryNames l).Nodup
  nonLibrary : t.nonLibrary.Nodup
  byAlias : t.byAlias.Pairwise fun p q => p.1.sameKey q.1 = false

/-- Whether a table says of some dependencies what there is to say, and nothing else. -/
structure Covers (t : NameTable) (es : List Edge) : Prop where
  once : t.HoldsOnce
  declared : ∀ v, v ∈ t.declared ↔ ∃ e ∈ es, v = .text e.name
  libraries : ∀ l, l ∈ t.byLibrary.map (·.1) ↔ ∃ e ∈ es, e.HasLibrary l
  byLibrary : ∀ l v, v ∈ t.libraryNames l ↔ ∃ e ∈ es, e.HasLibrary l ∧ v = .text e.name
  nonLibrary : ∀ v, v ∈ t.nonLibrary ↔ ∃ e ∈ es, e.targetLib = none ∧ v = .text e.name
  aliases : ∀ p ∈ t.byAlias, ∃ e ∈ es, e.targetLib.isSome ∧ e.externName = p.1
  byAlias : ∀ a, getByKey? t.byAlias a = nameUnderAlias es a

theorem covers_of_ofNames {es : List Edge} {t : NameTable}
    (h : ofNames (es.map Edge.declaredName) = .ok t) : t.Covers es := by
  have describes := describes_ofNames h
  have keyed := isKeyedBy_ofNames h
  have nonLibraryTexts : ∀ v ∈ t.nonLibrary, v.IsText := fun v hv => by
    obtain ⟨e, -, -, rfl⟩ := (describes.nonLibrary v).1 hv
    exact Value.isText_text _
  have once : t.HoldsOnce := {
    declared := nodup_of_pairwise_sameKey describes.declared_isText (pairwise_distinctKeys _)
    libraries := describes.libraries
    byLibrary := fun l =>
      nodup_of_pairwise_sameKey (describes.names_isText l) (pairwise_libraryNames h l)
    nonLibrary := nodup_of_pairwise_sameKey nonLibraryTexts keyed.nonLibraryApart
    byAlias := keyed.aliasesApart }
  exact ⟨once, describes.mem_declared, keyed.libraries, describes.byLibrary, describes.nonLibrary,
    keyed.aliases, describes.byAlias⟩

/-! ### Dependencies in another order -/

/-- Whether two tables say the same, up to order, of everything but what some aliases lead to. -/
structure SameExcept (changed : Value → Prop) (t u : NameTable) : Prop where
  declared : t.declared.Perm u.declared
  libraries : (t.byLibrary.map (·.1)).Perm (u.byLibrary.map (·.1))
  byLibrary : ∀ l, (t.libraryNames l).Perm (u.libraryNames l)
  nonLibrary : t.nonLibrary.Perm u.nonLibrary
  aliases : ∀ a, (getByKey? t.byAlias a).isSome = (getByKey? u.byAlias a).isSome
  byAlias : ∀ a, ¬changed a → getByKey? t.byAlias a = getByKey? u.byAlias a

theorem Covers.sameExcept {t u : NameTable} {es es' : List Edge} (ht : t.Covers es)
    (hu : u.Covers es') (perm : es.Perm es') : SameExcept (IsContested es) t u where
  declared := (List.perm_ext_iff_of_nodup ht.once.declared hu.once.declared).2 fun v => by
    simp only [ht.declared, hu.declared, perm.mem_iff]
  libraries := (List.perm_ext_iff_of_nodup ht.once.libraries hu.once.libraries).2 fun l => by
    simp only [ht.libraries, hu.libraries, perm.mem_iff]
  byLibrary := fun l =>
    (List.perm_ext_iff_of_nodup (ht.once.byLibrary l) (hu.once.byLibrary l)).2 fun v => by
      simp only [ht.byLibrary, hu.byLibrary, perm.mem_iff]
  nonLibrary := (List.perm_ext_iff_of_nodup ht.once.nonLibrary hu.once.nonLibrary).2 fun v => by
    simp only [ht.nonLibrary, hu.nonLibrary, perm.mem_iff]
  aliases := fun a => by
    rw [ht.byAlias, hu.byAlias, nameUnderAlias, nameUnderAlias, Option.isSome_map,
      Option.isSome_map, isSome_lastUnderAlias_of_perm perm]
  byAlias := fun a agreed => by
    rw [ht.byAlias, hu.byAlias, nameUnderAlias_of_perm perm agreed]

/-- A table says of its dependencies what there is to say and nothing else, and in another order they
give a table that says the same of everything but the aliases that are contested; each of those leads
to another name in some order. -/
theorem covers_ofNames {es : List Edge} (listable : ∀ e ∈ es, e.IsListable) :
    ∃ t, ofNames (es.map Edge.declaredName) = .ok t ∧ t.Covers es ∧
      (∀ es', es.Perm es' → ∃ u, ofNames (es'.map Edge.declaredName) = .ok u ∧
        SameExcept (IsContested es) t u) ∧
      ∀ a, IsContested es a → ∃ es' u, es.Perm es' ∧
        ofNames (es'.map Edge.declaredName) = .ok u ∧
        getByKey? u.byAlias a ≠ getByKey? t.byAlias a := by
  obtain ⟨t, ht⟩ := ofNames_isOk_iff.2 listable
  have covers := covers_of_ofNames ht
  have reordered {es' : List Edge} (perm : es.Perm es') :
      ∃ u, ofNames (es'.map Edge.declaredName) = .ok u :=
    ofNames_isOk_iff.2 fun e he => listable e (perm.mem_iff.2 he)
  refine ⟨t, ht, covers, fun es' perm => ?_, fun a contested => ?_⟩
  · obtain ⟨u, hu⟩ := reordered perm
    exact ⟨u, hu, covers.sameExcept (covers_of_ofNames hu) perm⟩
  · obtain ⟨es', perm, differs⟩ := exists_perm_of_isContested contested
    obtain ⟨u, hu⟩ := reordered perm
    refine ⟨es', u, perm, hu, ?_⟩
    rw [(covers_of_ofNames hu).byAlias, covers.byAlias]
    exact differs

/-- Two dependencies under the alias `foo`, whose libraries have one library name as well, and one
without a library. -/
def contested : List Edge :=
  [⟨registryId "app", registryId "left", .normal, "left", .text "foo", some (.text "my-lib")⟩,
    ⟨registryId "app", registryId "right", .normal, "right", .text "foo", some (.text "my_lib")⟩,
    ⟨registryId "app", registryId "tool", .normal, "tool", .text "tool", none⟩]

theorem covers_ofNames_contested : (∀ e ∈ contested, e.IsListable) ∧
    IsContested contested (.text "foo") ∧
    ∃ t, ofNames (contested.map Edge.declaredName) = .ok t ∧ t.Covers contested ∧
      (∀ es', contested.Perm es' → ∃ u, ofNames (es'.map Edge.declaredName) = .ok u ∧
        SameExcept (IsContested contested) t u) ∧
      ∃ es' u, contested.Perm es' ∧ ofNames (es'.map Edge.declaredName) = .ok u ∧
        getByKey? u.byAlias (.text "foo") ≠ getByKey? t.byAlias (.text "foo") := by
  have listable : ∀ e ∈ contested, e.IsListable := by
    simp [contested, Edge.IsListable, Value.IsText, Value.key?]
  have shared : IsContested contested (.text "foo") := by
    refine ⟨_, List.mem_cons_self, _, List.mem_cons_of_mem _ List.mem_cons_self, ⟨⟨rfl, ?_⟩, rfl, ?_⟩,
      by decide⟩
    · decide
    · decide
  obtain ⟨t, ht, covers, same, changed⟩ := covers_ofNames listable
  exact ⟨listable, shared, t, ht, covers, same, changed _ shared⟩

end NameTable

end UnusedDeps
