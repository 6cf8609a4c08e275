import UnusedDeps.Proofs.Graph.Fidelity
import UnusedDeps.Proofs.Verdict

/-!
# Keys that lead to several packages

A manifest can declare one key several times, for one platform each, and with a
different package behind it. The graph keeps one edge for each kind, key and
target, so such a key has several edges, and when only some of their targets
have a library its name stands among the names with a library and among those
without. Main statement: `keepsKeys_ofDocument`, that this is the only way in which
a key can have several edges, or a name can stand in both lookups.
-/

namespace UnusedDeps

/-- Whether no two of several dependencies have one kind and one key. -/
def OneEdgePerKey (es : List Edge) : Prop :=
  es.Pairwise fun e f => ¬(e.kind = f.kind ∧ e.name = f.name)

theorem OneEdgePerKey.eq {es : List Edge} (h : OneEdgePerKey es) {e f : Edge} (he : e ∈ es)
    (hf : f ∈ es) (kinds : e.kind = f.kind) (names : e.name = f.name) : e = f := by
  by_contra apart
  have : Std.Symm fun e f : Edge => ¬(e.kind = f.kind ∧ e.name = f.name) :=
    ⟨fun _ _ hne ⟨hk, hn⟩ => hne ⟨hk.symm, hn.symm⟩⟩
  exact h.forall he hf apart ⟨kinds, names⟩

/-- Whether no name of a table stands both with a library and without one. -/
def NameTable.IsExclusive (t : NameTable) : Prop := ∀ v ∈ t.nonLibrary, ∀ l, v ∉ t.libraryNames l

section

variable [Whereabouts]

namespace ResolverDocument

/-- Whether some kind of a dependency entry of a document gives an edge. -/
def Says (doc : ResolverDocument) (e : Edge) : Prop := ∃ source d kind, doc.Gives source d kind e

/-- Whether all entries of a package for one kind and key lead to one target. -/
def HasSingleTargets (doc : ResolverDocument) (p : PackageId) : Prop :=
  ∀ e f, doc.Says e → doc.Says f → e.source.same p = true → f.source.same p = true →
    e.kind = f.kind → e.name = f.name → e.target.same f.target = true

end ResolverDocument

namespace Graph

variable {doc : ResolverDocument} {g : Graph} {p : PackageId} {es : List Edge}

/-! ### Edges -/

theorem says_of_mem_edges (h : Graph.ofDocument doc = .ok g) {e : Edge} (he : e ∈ g.edges) :
    doc.Says e := by
  obtain ⟨t, nodes, es, ids, hy, hg⟩ := ofDocument_eq_ok.1 h
  obtain ⟨source, d, kind, gives⟩ :=
    (PackageTable.mem_edgesOfNodes hy.edgesRead).1 (hy.mem_of_mem_edges hg he)
  exact ⟨source, d, kind, t, nodes, es, ids, hy, gives⟩

theorem sameEntry_eq_false_of_dependencies (h : Graph.ofDocument doc = .ok g)
    (hes : g.dependencies p = .ok es) : es.Pairwise fun e f => e.sameEntry f = false := by
  obtain ⟨t, nodes, es', ids, hy, hg⟩ := ofDocument_eq_ok.1 h
  have apart := (hy.distinct_edges hg).sublist (List.filter_sublist (p := (·.source.same p)))
  refine ((sortByKeys?_perm (orWrongType_eq_ok.1 hes)).pairwise_iff fun {e f} hef => ?_).2 apart
  exact Bool.eq_false_iff.2 fun hfe => Bool.eq_false_iff.1 hef (Edge.sameEntry_symm hfe)

/-- Two dependencies of a package with one kind and key have different targets. -/
theorem targets_apart (h : Graph.ofDocument doc = .ok g) (hes : g.dependencies p = .ok es) :
    es.Pairwise fun e f =>
      ¬(e.kind = f.kind ∧ e.name = f.name ∧ e.target.same f.target = true) := by
  refine (sameEntry_eq_false_of_dependencies h hes).imp_of_mem fun {e f} he hf apart => ?_
  rintro ⟨kinds, names, targets⟩
  have source := PackageId.same_trans ((mem_dependencies hes e).1 he).2
    (PackageId.same_symm ((mem_dependencies hes f).1 hf).2)
  rw [Edge.sameEntry_iff.2 ⟨source, targets, kinds, names⟩] at apart
  cases apart

theorem oneEdgePerKey_iff (h : Graph.ofDocument doc = .ok g) (hes : g.dependencies p = .ok es) :
    OneEdgePerKey es ↔ doc.HasSingleTargets p := by
  constructor
  · intro single e f ⟨_, _, _, he⟩ ⟨_, _, _, hf⟩ hep hfp kinds names
    obtain ⟨e', he', hee⟩ := exists_edge_of_gives h he
    obtain ⟨f', hf', hff⟩ := exists_edge_of_gives h hf
    obtain ⟨hes', het, hek, hen⟩ := Edge.sameEntry_iff.1 hee
    obtain ⟨hfs', hft, hfk, hfn⟩ := Edge.sameEntry_iff.1 hff
    have heq : e' = f' := single.eq
      ((mem_dependencies hes e').2 ⟨he', PackageId.same_trans hes' hep⟩)
      ((mem_dependencies hes f').2 ⟨hf', PackageId.same_trans hfs' hfp⟩)
      (hek.trans (kinds.trans hfk.symm)) (hen.trans (names.trans hfn.symm))
    exact PackageId.same_trans (PackageId.same_symm het) (heq ▸ hft)
  · intro single
    refine (targets_apart h hes).imp_of_mem fun {e f} he hf apart => ?_
    rintro ⟨kinds, names⟩
    obtain ⟨hedge, hep⟩ := (mem_dependencies hes e).1 he
    obtain ⟨hfedge, hfp⟩ := (mem_dependencies hes f).1 hf
    exact apart ⟨kinds, names, single e f (says_of_mem_edges h hedge) (says_of_mem_edges h hfedge)
      hep hfp kinds names⟩

end Graph

end

/-! ### Lookups -/

namespace NameTable.Describes

variable {t : NameTable} {es : List Edge} (h : t.Describes es)

include h

theorem mem_libraryNames_iff {v : Value} :
    (∃ l, v ∈ t.libraryNames l) ↔ ∃ e ∈ es, e.targetLib ≠ none ∧ v = .text e.name := by
  simp only [h.byLibrary]
  constructor
  · rintro ⟨l, e, he, ⟨s, hs, -⟩, hv⟩
    exact ⟨e, he, by simp [hs], hv⟩
  · rintro ⟨e, he, hlib, hv⟩
    obtain ⟨w, hw⟩ := Option.ne_none_iff_exists'.1 hlib
    obtain ⟨s, rfl⟩ := h.textual e he w hw
    exact ⟨_, e, he, ⟨s, hw, rfl⟩, hv⟩

/-- Every declared name stands in one of the lookups. -/
theorem mem_declared_iff {v : Value} :
    v ∈ t.declared ↔ v ∈ t.nonLibrary ∨ ∃ l, v ∈ t.libraryNames l := by
  rw [h.mem_declared, h.nonLibrary, h.mem_libraryNames_iff]
  constructor
  · rintro ⟨e, he, hv⟩
    by_cases hlib : e.targetLib = none
    · exact .inl ⟨e, he, hlib, hv⟩
    · exact .inr ⟨e, he, hlib, hv⟩
  · rintro (⟨e, he, -, hv⟩ | ⟨e, he, -, hv⟩)
    · exact ⟨e, he, hv⟩
    · exact ⟨e, he, hv⟩

theorem isExclusive_iff : t.IsExclusive ↔
    ∀ e ∈ es, ∀ f ∈ es, e.name = f.name → e.targetLib = none → f.targetLib = none := by
  constructor
  · intro exclusive e he f hf names hlib
    by_contra library
    have without : .text e.name ∈ t.nonLibrary := (h.nonLibrary _).2 ⟨e, he, hlib, rfl⟩
    obtain ⟨l, hl⟩ := h.mem_libraryNames_iff.2 ⟨f, hf, library, congrArg Value.text names⟩
    exact exclusive _ without l hl
  · intro agree v without l hl
    obtain ⟨e, he, hlib, hv⟩ := (h.nonLibrary v).1 without
    obtain ⟨f, hf, library, hv'⟩ := h.mem_libraryNames_iff.1 ⟨l, hl⟩
    exact library (agree e he f hf (Value.text.inj (hv.symm.trans hv')) hlib)

end NameTable.Describes

/-! ### The keys of a package -/

namespace Graph

/-- How the keys of a package stand in the edges and in the tables of a graph. -/
structure KeepsKeys [Whereabouts] (g : Graph) (doc : ResolverDocument) (p : PackageId)
    (es : List Edge) : Prop where
  apart : es.Pairwise fun e f =>
    ¬(e.kind = f.kind ∧ e.name = f.name ∧ e.target.same f.target = true)
  single_iff : OneEdgePerKey es ↔ doc.HasSingleTargets p
  covered : ∀ n, DependencyNames.ofGraph g p = .ok n → ∀ k v, v ∈ (n.table k).declared ↔
    v ∈ (n.table k).nonLibrary ∨ ∃ l, v ∈ (n.table k).libraryNames l
  exclusive_iff : ∀ n, DependencyNames.ofGraph g p = .ok n → ∀ k, (n.table k).IsExclusive ↔
    ∀ e ∈ es, ∀ f ∈ es, e.kind = k → f.kind = k → e.name = f.name →
      e.targetLib = none → f.targetLib = none
  exclusive : doc.HasSingleTargets p → ∀ n, DependencyNames.ofGraph g p = .ok n → ∀ k,
    (n.table k).IsExclusive

/-- A key has one edge in a graph, and a name stands in one lookup, wherever the entries for one
key lead to one package. -/
theorem keepsKeys_ofDocument [Whereabouts] {doc : ResolverDocument} {g : Graph}
    (h : Graph.ofDocument doc = .ok g) {p : PackageId} {es : List Edge}
    (hes : g.dependencies p = .ok es) : g.KeepsKeys doc p es := by
  have describe : ∀ n, DependencyNames.ofGraph g p = .ok n → n.Describe es := fun n hn => by
    obtain ⟨-, es', hes', hdescribe⟩ := DependencyNames.describe_ofGraph hn
    cases hes.symm.trans hes'
    exact hdescribe
  have exclusive_iff : ∀ n, DependencyNames.ofGraph g p = .ok n → ∀ k, (n.table k).IsExclusive ↔
      ∀ e ∈ es, ∀ f ∈ es, e.kind = k → f.kind = k → e.name = f.name →
        e.targetLib = none → f.targetLib = none := fun n hn k => by
    simp only [(describe n hn k).isExclusive_iff, List.mem_filter, decide_eq_true_eq, and_imp]
    exact ⟨fun agree e he f hf hek hfk => agree e he hek f hf hfk,
      fun agree e he hek f hf hfk => agree e he f hf hek hfk⟩
  refine ⟨targets_apart h hes, oneEdgePerKey_iff h hes,
    fun n hn k v => (describe n hn k).mem_declared_iff, exclusive_iff, fun single n hn k => ?_⟩
  refine (exclusive_iff n hn k).2 fun e he f hf hek hfk names hlib => ?_
  have heq : e = f := ((oneEdgePerKey_iff h hes).2 single).eq he hf (hek.trans hfk.symm) names
  rw [← heq]
  exact hlib

theorem keepsKeys_unusedLog : ∃ g es, Graph.ofDocument Analysis.unusedLog = .ok g ∧
    g.dependencies (registryId "app") = .ok es ∧
    g.KeepsKeys Analysis.unusedLog (registryId "app") es := by
  have h : Graph.ofDocument Analysis.unusedLog = .ok _ := rfl
  have textual := Graph.isTextual_ofDocument h (isTextual_soleMember _ _ _)
  obtain ⟨es, hes⟩ := textual.dependencies_isOk (registryId "app")
  exact ⟨_, es, h, hes, keepsKeys_ofDocument h hes⟩

/-- A member that declares one key twice, with a package that has a library and one that has
none. -/
def splitKey : ResolverDocument :=
  soleMember [⟨some "left", .null, .given "foo"⟩, ⟨some "right", .null, .given "foo"⟩]
    [("left", "foo", .null), ("right", "foo", .null)] [("left", some "left"), ("right", none)]

theorem not_oneEdgePerKey_splitKey : ∃ g es n, Graph.ofDocument splitKey = .ok g ∧
    g.dependencies (registryId "app") = .ok es ∧ ¬OneEdgePerKey es ∧
    DependencyNames.ofGraph g (registryId "app") = .ok n ∧
    .text "foo" ∈ (n.table .normal).nonLibrary ∧
    .text "foo" ∈ (n.table .normal).libraryNames "left" := by
  let left : Edge :=
    ⟨registryId "app", registryId "left", .normal, "foo", .text "foo", some (.text "left")⟩
  let right : Edge := ⟨registryId "app", registryId "right", .normal, "foo", .text "foo", none⟩
  let g : Graph := ⟨[registryPackage "app" none, registryPackage "left" (some "left"),
    registryPackage "right" none], [left, right], [registryId "app"]⟩
  have h : Graph.ofDocument splitKey = .ok g := rfl
  have textual := Graph.isTextual_ofDocument h (isTextual_soleMember _ _ _)
  obtain ⟨n, hn⟩ := DependencyNames.ofGraph_isOk textual (registryId "app")
  obtain ⟨-, es, hes, describe⟩ := DependencyNames.describe_ofGraph hn
  have hleft : left ∈ es := (mem_dependencies hes left).2 ⟨List.mem_cons_self, rfl⟩
  have hright : right ∈ es :=
    (mem_dependencies hes right).2 ⟨List.mem_cons_of_mem left List.mem_cons_self, rfl⟩
  refine ⟨g, es, n, h, hes, ?_, hn, ?_, ?_⟩
  · intro single
    have same : left = right := single.eq hleft hright rfl rfl
    exact absurd same (by decide)
  · exact ((describe .normal).nonLibrary _).2
      ⟨right, List.mem_filter.2 ⟨hright, rfl⟩, rfl, rfl⟩
  · exact ((describe .normal).byLibrary "left" _).2
      ⟨left, List.mem_filter.2 ⟨hleft, rfl⟩, ⟨"left", rfl, by decide⟩, rfl⟩

end Graph

end UnusedDeps
