import UnusedDeps.Proofs.Names.Members

/-!
# Evidence of use

A unit shows that a dependency is used when it refers to a library with the
library name of the dependency, or receives a library under the alias under
which the dependency stands in its table. Main statement: after any list of
units, a name is marked exactly when one of the units of its package gives
evidence for it through a kind that shares the set of its own.
-/

namespace UnusedDeps

/-- Whether two kinds share one set of used names. -/
def DependencyKind.SharesUse (k k' : DependencyKind) : Prop := k = .build ↔ k' = .build

/-- What a unit shows of the dependencies of one kind. -/
inductive Shows (es : List Edge) (a : UsageArtifact) (r : InvocationRecord) (name : String) : Prop
  | throughLibrary (e : Edge) (l : String) (he : e ∈ es) (hname : e.name = name)
      (hl : e.HasLibrary l) (hused : l ∈ a.libraries)
  | throughAlias (x : String × String) (e : Edge) (hx : x ∈ r.externs)
      (hlast : lastUnderAlias es (.text x.1) = some e) (hname : e.name = name)

/-- Whether a unit of a package gives evidence that a name of a kind is used. -/
structure InvocationRecord.Evidences (r : InvocationRecord) (g : Graph) (artifacts : ArtifactLoader)
    (p : PackageId) (kind : DependencyKind) (name : String) : Prop where
  ofPackage : r.package.same p = true
  shown : ∃ a es k, (artifacts r).result = .ok a ∧ g.dependencies p = .ok es ∧
    kind.SharesUse k ∧ Shows (es.filter fun e => e.kind = k) a r name

theorem Shows.exists_library {es : List Edge} {a : UsageArtifact} {r : InvocationRecord}
    {name : String} (h : Shows es a r name) : ∃ e ∈ es, e.name = name ∧ e.targetLib ≠ none := by
  cases h with
  | throughLibrary e l he hname hl hused =>
    obtain ⟨s, hs, -⟩ := hl
    exact ⟨e, he, hname, by simp [hs]⟩
  | throughAlias x e hx hlast hname =>
    obtain ⟨he, hlib, -⟩ := of_lastUnderAlias hlast
    exact ⟨e, he, hname, Option.isSome_iff_ne_none.1 hlib⟩

/-- Evidence comes through a dependency with a library only. -/
theorem InvocationRecord.Evidences.exists_library {r : InvocationRecord} {g : Graph}
    {artifacts : ArtifactLoader} {p : PackageId} {k : DependencyKind} {name : String}
    (h : r.Evidences g artifacts p k name) : ∃ e ∈ g.edges, e.source.same p = true ∧
      k.SharesUse e.kind ∧ e.name = name ∧ e.targetLib ≠ none := by
  obtain ⟨a, es, k', -, hes, hk, shown⟩ := h.shown
  obtain ⟨e, he, hname, hlib⟩ := shown.exists_library
  obtain ⟨hmem, hkind⟩ := List.mem_filter.1 he
  obtain ⟨hedge, hs⟩ := (Graph.mem_dependencies hes e).1 hmem
  have hkind : e.kind = k' := by simpa using hkind
  exact ⟨e, hedge, hs, hkind ▸ hk, hname, hlib⟩

/-! ### Names of one table -/

theorem NameTable.Describes.mem_usedBy {es : List Edge} {t : NameTable} (h : t.Describes es)
    {a : UsageArtifact} {r : InvocationRecord} {v : Value} :
    v ∈ t.usedBy a r ↔ ∃ name, v = .text name ∧ Shows es a r name := by
  rw [usedBy, List.mem_append, List.mem_flatMap, List.mem_filterMap]
  constructor
  · rintro (⟨l, hl, hv⟩ | ⟨x, hx, hv⟩)
    · obtain ⟨e, he, hlib, rfl⟩ := (h.byLibrary l v).1 hv
      exact ⟨e.name, rfl, .throughLibrary e l he rfl hlib hl⟩
    · rw [h.byAlias, Option.map_eq_some_iff] at hv
      obtain ⟨e, he, rfl⟩ := hv
      exact ⟨e.name, rfl, .throughAlias x e hx he rfl⟩
  · rintro ⟨name, rfl, shown⟩
    cases shown with
    | throughLibrary e l he hname hl hused =>
      exact .inl ⟨l, hused, (h.byLibrary l _).2 ⟨e, he, hl, by rw [hname]⟩⟩
    | throughAlias x e hx hlast hname =>
      exact .inr ⟨x, hx, by rw [h.byAlias, hlast, ← hname]; rfl⟩

/-! ### Marks -/

namespace UsedName

theorem same_trans {x y z : UsedName} (h : x.same y = true) (h' : y.same z = true) :
    x.same z = true := by
  obtain ⟨hp, hn⟩ := same_iff.1 h
  obtain ⟨hp', hn'⟩ := same_iff.1 h'
  exact same_iff.2 ⟨PackageId.same_trans hp hp', Value.sameKey_trans hn hn'⟩

end UsedName

namespace UsedDependencies

theorem contains_iff {u : UsedDependencies} {k : DependencyKind} {y : UsedName} :
    u.contains k y = true ↔ ∃ z ∈ u.forKind k, y.same z = true :=
  List.any_eq_true

theorem forKind_congr (u : UsedDependencies) {k k' : DependencyKind} (h : k.SharesUse k') :
    u.forKind k = u.forKind k' := by
  cases k <;> cases k' <;> simp_all [DependencyKind.SharesUse, forKind]

theorem mem_forKind_mark {u : UsedDependencies} {k k' : DependencyKind} {x z : UsedName}
    (fresh : u.contains k x = false) (h : k.SharesUse k') :
    z ∈ (u.mark k x).forKind k' ↔ z = x ∨ z ∈ u.forKind k' := by
  unfold mark
  rw [fresh]
  cases k <;> cases k' <;> simp_all [DependencyKind.SharesUse, forKind]

theorem contains_mark_iff (u : UsedDependencies) (k k' : DependencyKind) (x y : UsedName) :
    (u.mark k x).contains k' y = true ↔
      u.contains k' y = true ∨ k.SharesUse k' ∧ y.same x = true := by
  by_cases shares : k.SharesUse k'
  · cases old : u.contains k x with
    | true =>
      have unchanged : u.mark k x = u := if_pos old
      rw [unchanged]
      refine ⟨.inl, fun h => h.elim id fun ⟨_, hy⟩ => ?_⟩
      obtain ⟨z, hz, hx⟩ := contains_iff.1 old
      exact contains_iff.2 ⟨z, u.forKind_congr shares ▸ hz, UsedName.same_trans hy hx⟩
    | false =>
      simp only [contains_iff, mem_forKind_mark old shares, or_and_right, exists_or,
        exists_eq_left, shares, true_and]
      exact Or.comm
  · have same := u.forKind_mark k k' x shares
    simp only [contains, same, shares, false_and, or_false]

theorem contains_foldl_mark (u : UsedDependencies) (k k' : DependencyKind) (p : PackageId)
    (vs : List Value) (y : UsedName) :
    (vs.foldl (fun u v => u.mark k ⟨p, v⟩) u).contains k' y = true ↔
      u.contains k' y = true ∨ k.SharesUse k' ∧ ∃ v ∈ vs, y.same ⟨p, v⟩ = true := by
  induction vs generalizing u with
  | nil => simp
  | cons v vs ih =>
    rw [List.foldl_cons, ih, contains_mark_iff, or_assoc, ← and_or_left, List.exists_mem_cons_iff]

theorem contains_foldl_markAll (u : UsedDependencies) (names : DependencyNames)
    (a : UsageArtifact) (r : InvocationRecord) (ks : List DependencyKind) (k : DependencyKind)
    (y : UsedName) :
    (ks.foldl (fun u kind => ((names.table kind).usedBy a r).foldl
        (fun u name => u.mark kind ⟨r.package, name⟩) u) u).contains k y = true ↔
      u.contains k y = true ∨ ∃ k' ∈ ks, k'.SharesUse k ∧
        ∃ v ∈ (names.table k').usedBy a r, y.same ⟨r.package, v⟩ = true := by
  induction ks generalizing u with
  | nil => simp
  | cons k' ks ih =>
    rw [List.foldl_cons, ih, contains_foldl_mark, or_assoc, List.exists_mem_cons_iff]

theorem contains_markAll (u : UsedDependencies) (names : DependencyNames) (a : UsageArtifact)
    (r : InvocationRecord) (k : DependencyKind) (y : UsedName) :
    (u.markAll names a r).contains k y = true ↔
      u.contains k y = true ∨ ∃ k', k'.SharesUse k ∧
        ∃ v ∈ (names.table k').usedBy a r, y.same ⟨r.package, v⟩ = true := by
  rw [markAll, contains_foldl_markAll]
  simp only [DependencyKind.mem_all, true_and]

/-! ### Units -/

/-- What the tables of the members tell of a unit and a name. -/
def Supported (names : NameTables) (load : ArtifactLoader) (k : DependencyKind) (y : UsedName)
    (r : InvocationRecord) : Prop :=
  ∃ a n k', (load r).result = .ok a ∧ names.get? r.package = some n ∧ k'.SharesUse k ∧
    ∃ v ∈ (n.table k').usedBy a r, y.same ⟨r.package, v⟩ = true

theorem contains_addRecord {names : NameTables} {load : ArtifactLoader}
    {u u' : UsedDependencies} {r : InvocationRecord}
    (h : (addRecord names load u r).result = .ok u') (k : DependencyKind) (y : UsedName) :
    u'.contains k y = true ↔ u.contains k y = true ∨ Supported names load k y r := by
  obtain ⟨a, ha, h⟩ := Logged.result_bind_eq_ok.1 h
  obtain ⟨_, -, h⟩ := Logged.result_bind_eq_ok.1 h
  cases hn : names.get? r.package with
  | none =>
    rw [hn] at h
    obtain ⟨_, -, h⟩ := Logged.result_bind_eq_ok.1 h
    cases h
    refine ⟨.inl, fun h => h.elim id fun ⟨_, n, _, _, hn', _⟩ => ?_⟩
    cases hn.symm.trans hn'
  | some n =>
    rw [hn] at h
    cases h
    rw [contains_markAll]
    refine or_congr_right ⟨fun ⟨k', hk, hv⟩ => ⟨a, n, k', ha, hn, hk, hv⟩, ?_⟩
    rintro ⟨a', n', k', ha', hn', hk, hv⟩
    cases ha.symm.trans ha'
    cases hn.symm.trans hn'
    exact ⟨k', hk, hv⟩

theorem contains_addRecords {names : NameTables} {load : ArtifactLoader}
    {records : List InvocationRecord} {u u' : UsedDependencies}
    (h : (addRecords names load u records).result = .ok u') (k : DependencyKind) (y : UsedName) :
    u'.contains k y = true ↔
      u.contains k y = true ∨ ∃ r ∈ records, Supported names load k y r := by
  induction records generalizing u with
  | nil =>
    cases h
    simp
  | cons r records ih =>
    obtain ⟨u₁, h₁, h⟩ := Logged.result_bind_eq_ok.1 h
    rw [ih h, contains_addRecord h₁, or_assoc, List.exists_mem_cons_iff]

/-- Units whose evidence was collected have artifacts. -/
theorem exists_artifact {names : NameTables} {load : ArtifactLoader}
    {records : List InvocationRecord} {u u' : UsedDependencies}
    (h : (addRecords names load u records).result = .ok u') {r : InvocationRecord}
    (hr : r ∈ records) : ∃ a, (load r).result = .ok a := by
  induction records generalizing u with
  | nil => cases hr
  | cons r' records ih =>
    obtain ⟨u₁, h₁, h⟩ := Logged.result_bind_eq_ok.1 h
    rcases List.mem_cons.1 hr with rfl | hr
    · obtain ⟨a, ha, -⟩ := Logged.result_bind_eq_ok.1 h₁
      exact ⟨a, ha⟩
    · exact ih h hr

theorem addRecords_isOk {names : NameTables} {load : ArtifactLoader}
    {records : List InvocationRecord} (u : UsedDependencies)
    (h : ∀ r ∈ records, (∃ a, (load r).result = .ok a) ∧ r.package.keys?.isSome) :
    ∃ u', (addRecords names load u records).result = .ok u' := by
  induction records generalizing u with
  | nil => exact ⟨u, rfl⟩
  | cons r records ih =>
    have first : ∃ u₁, (addRecord names load u r).result = .ok u₁ := by
      obtain ⟨⟨a, ha⟩, hkeys⟩ := h r List.mem_cons_self
      obtain ⟨ks, hks⟩ := Option.isSome_iff_exists.1 hkeys
      simp only [addRecord, Logged.result_bind_eq_ok, ha, Logged.result_ofExcept,
        orWrongType_eq_ok, hks]
      cases names.get? r.package with
      | none => exact ⟨u, a, rfl, ks, rfl, rfl⟩
      | some n => exact ⟨_, a, rfl, ks, rfl, rfl⟩
    obtain ⟨u₁, h₁⟩ := first
    obtain ⟨u', h'⟩ := ih u₁ fun r' hr' => h r' (List.mem_cons_of_mem r hr')
    exact ⟨u', Logged.result_bind_eq_ok.2 ⟨u₁, h₁, h'⟩⟩

/-- After a list of units a declared name is marked exactly when one of them gives evidence. -/
theorem contains_ofRecords {g : Graph} {names : NameTables} (hd : names.Describe g)
    {load : ArtifactLoader} {records : List InvocationRecord} {used : UsedDependencies}
    (h : (ofRecords names load records).result = .ok used) {n : DependencyNames} (hn : n ∈ names)
    (k : DependencyKind) (name : String) :
    used.contains k ⟨n.package, .text name⟩ = true ↔
      ∃ r ∈ records, r.Evidences g load n.package k name := by
  rw [contains_addRecords h, contains_empty]
  simp only [Bool.false_eq_true, false_or]
  refine exists_congr fun r => and_congr_right fun _ => ?_
  constructor
  · rintro ⟨a, n', k', ha, hget, hk, v, hv, hs⟩
    obtain ⟨hp, hname⟩ := UsedName.same_iff.1 hs
    cases (hd.get?_eq hn hp).symm.trans hget
    obtain ⟨es, hes, hdescribe⟩ := hd.tables n hn
    obtain ⟨name', rfl, shown⟩ := (hdescribe k').mem_usedBy.1 hv
    cases (Value.sameKey_texts name name').1 hname
    exact ⟨PackageId.same_symm hp, a, es, k', ha, hes, hk.symm, shown⟩
  · rintro ⟨hp, a, es, k', ha, hes, hk, shown⟩
    obtain ⟨es', hes', hdescribe⟩ := hd.tables n hn
    cases hes.symm.trans hes'
    refine ⟨a, n, k', ha, hd.get?_eq hn (PackageId.same_symm hp), hk.symm, .text name,
      (hdescribe k').mem_usedBy.2 ⟨name, rfl, shown⟩, ?_⟩
    exact UsedName.same_iff.2 ⟨PackageId.same_symm hp, (Value.sameKey_texts name name).2 rfl⟩

end UsedDependencies

end UnusedDeps
