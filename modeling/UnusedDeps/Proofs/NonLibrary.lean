import UnusedDeps.Proofs.Verdict

/-!
# Dependencies without a library

No unit can show that a dependency without a library is used. Names are marked
by package and name only, though, and two kinds share one set, so a dependency
with a library that stands under the same key of the manifest can hide one
without. Main statement: a name is listed in every run that does not ignore it
exactly when no such dependency is there.
-/

namespace UnusedDeps

namespace Analysis

variable {g : Graph} {p : PackageId}

/-- A dependency with a library hides its name for all kinds that share its set, in a run with one
unit that refers to the library. -/
theorem exists_run_without (options : RunOptions) (hg : g.WellFormed) (ht : g.IsTextual)
    {k : DependencyKind} {f : Edge} (hf : f ∈ g.edges) (hp : f.source.same p = true)
    (shares : k.SharesUse f.kind) (hlib : f.targetLib ≠ none) :
    ∃ records artifacts res,
      (run g records options artifacts fun _ => .answer none).result = .ok res ∧
        .text f.name ∉ res.outcome.reported p k := by
  obtain ⟨v, hv⟩ := Option.ne_none_iff_exists'.1 hlib
  obtain ⟨l, rfl⟩ := (ht.edges f hf).2.2.2 v hv
  have self : p.same p = true := PackageId.same_trans (PackageId.same_symm hp) hp
  obtain ⟨res, hres⟩ := exists_run_of_unit hg ht options self [] [Text.underscored l]
  refine ⟨_, _, res, hres, fun listed => ?_⟩
  obtain ⟨name, heq, unaccounted⟩ := (mem_reported_iff hg hres p k _).1 listed
  cases heq
  obtain ⟨es, hes⟩ := ht.dependencies_isOk p
  have hmem : f ∈ es.filter fun e => e.kind = f.kind :=
    List.mem_filter.2 ⟨(Graph.mem_dependencies hes f).2 ⟨hf, hp⟩, by simp⟩
  have shown : (unitOf p []).Evidences g (fun _ => .answer ⟨[Text.underscored l]⟩) p k f.name :=
    ⟨self, _, es, f.kind, rfl, hes, shares,
      .throughLibrary f _ hmem rfl ⟨l, hv, rfl⟩ (List.mem_singleton.2 rfl)⟩
  exact unaccounted.unseen _ (List.mem_singleton.2 rfl) shown

/-- Whether a name is listed in every run that does not ignore it. -/
def AlwaysListed (g : Graph) (p : PackageId) (k : DependencyKind) (name : String) : Prop :=
  ∀ records options artifacts ignores res,
    (run g records options artifacts ignores).result = .ok res →
    ¬g.Ignores ignores p k (.text name) → .text name ∈ res.outcome.reported p k

/-- Whether all dependencies under a key, of the kinds that share a set, are without a library. -/
def WithoutLibrary (g : Graph) (p : PackageId) (k : DependencyKind) (name : String) : Prop :=
  ∀ f ∈ g.edges, f.source.same p = true → k.SharesUse f.kind → f.name = name → f.targetLib = none

/-- When a declared name is listed, in one run and in every run. -/
theorem always_listed_iff [Whereabouts] {doc : ResolverDocument} (h : Graph.ofDocument doc = .ok g)
    (hm : ∃ m ∈ g.members, m.same p = true) {e : Edge} (he : e ∈ g.edges)
    (hs : e.source.same p = true) :
    (∀ records options artifacts ignores res,
      (run g records options artifacts ignores).result = .ok res →
      (.text e.name ∈ res.outcome.reported p e.kind ↔
        ¬g.Ignores ignores p e.kind (.text e.name) ∧
          ∀ r ∈ records, ¬r.Evidences g artifacts p e.kind e.name)) ∧
    (WithoutLibrary g p e.kind e.name → AlwaysListed g p e.kind e.name) ∧
    (doc.IsTextual → AlwaysListed g p e.kind e.name → WithoutLibrary g p e.kind e.name) := by
  have hg := Graph.wellFormed_ofDocument h
  refine ⟨fun records options artifacts ignores res hres => mem_reported_of_edge hg hres hm he hs,
    ?_, ?_⟩
  · intro none records options artifacts ignores res hres hignored
    refine (mem_reported_of_edge hg hres hm he hs).2 ⟨hignored, fun r _ shown => ?_⟩
    obtain ⟨f, hf, hfs, shares, hname, hlib⟩ := shown.exists_library
    exact hlib (none f hf hfs shares hname)
  · intro hdoc always f hf hfs shares hname
    by_contra hlib
    obtain ⟨records, artifacts, res, hres, hidden⟩ :=
      exists_run_without {} hg (Graph.isTextual_ofDocument h hdoc) hf hfs shares hlib
    rw [hname] at hidden
    exact hidden (always records {} artifacts _ res hres (g.not_ignores_none p e.kind _))

/-- A member that depends on one package without a library. -/
def loneTool : ResolverDocument :=
  soleMember [⟨some "tool", .null, .absent⟩] [("tool", "tool", .null)] [("tool", none)]

theorem always_listed_loneTool : ∃ g, Graph.ofDocument loneTool = .ok g ∧
    AlwaysListed g (registryId "app") .normal "tool" := by
  let tool : Edge := ⟨registryId "app", registryId "tool", .normal, "tool", .text "tool", none⟩
  have h : Graph.ofDocument loneTool =
      .ok ⟨[registryPackage "app" none, registryPackage "tool" none], [tool], [registryId "app"]⟩ :=
    rfl
  refine ⟨_, h, ?_⟩
  refine (always_listed_iff h ⟨registryId "app", List.mem_singleton.2 rfl, rfl⟩
    (List.mem_singleton.2 rfl : tool ∈ [tool]) rfl).2.1 ?_
  intro f hf _ _ _
  cases List.mem_singleton.1 hf
  rfl

/-- A member that depends, under one key, on a package without a library and, for its tests, on one
with a library. -/
def sharedKey : ResolverDocument :=
  soleMember [⟨some "tool", .null, .given "foo"⟩, ⟨some "helper", .text "dev", .given "foo"⟩]
    [("tool", "foo", .null), ("helper", "foo", .text "dev")]
    [("tool", none), ("helper", some "helper")]

theorem not_listed_sharedKey : ∃ g e records artifacts ignores res,
    Graph.ofDocument sharedKey = .ok g ∧ registryId "app" ∈ g.members ∧ e ∈ g.edges ∧
      e.source = registryId "app" ∧ e.targetLib = none ∧
      (run g records {} artifacts ignores).result = .ok res ∧
      ¬g.Ignores ignores (registryId "app") e.kind (.text e.name) ∧
      .text e.name ∉ res.outcome.reported (registryId "app") e.kind := by
  have textual : sharedKey.IsTextual := isTextual_soleMember _ _ _
  let tool : Edge := ⟨registryId "app", registryId "tool", .normal, "foo", .text "foo", none⟩
  let helper : Edge :=
    ⟨registryId "app", registryId "helper", .development, "foo", .text "foo", some (.text "helper")⟩
  have h : Graph.ofDocument sharedKey =
      .ok ⟨[registryPackage "app" none, registryPackage "tool" none,
        registryPackage "helper" (some "helper")], [tool, helper], [registryId "app"]⟩ := rfl
  have shares : DependencyKind.SharesUse .normal helper.kind := by
    simp [DependencyKind.SharesUse, helper]
  obtain ⟨records, artifacts, res, hres, hidden⟩ :=
    exists_run_without {} (Graph.wellFormed_ofDocument h) (Graph.isTextual_ofDocument h textual)
      (List.mem_cons_of_mem tool (List.mem_singleton.2 rfl) : helper ∈ [tool, helper])
      (PackageId.same_self rfl) shares (by simp [helper])
  exact ⟨_, tool, records, artifacts, _, res, h, List.mem_singleton.2 rfl, List.mem_cons_self, rfl,
    rfl, hres, Graph.not_ignores_none _ _ _ _, hidden⟩

end Analysis

end UnusedDeps
