import UnusedDeps.Analysis
import UnusedDeps.Proofs.Graph.Registry
import UnusedDeps.Proofs.Outcome.Entries
import UnusedDeps.Proofs.Usage.Evidence

/-!
# The verdict of an analysis

The analysis lists a declared dependency of a member exactly when no ignore
table holds its name and no unit gives evidence that it is used. The verdict
passes through the tables of the members, the sets of used names and the ignore
tables; here the three are put together over any graph that a document gives.
-/

namespace UnusedDeps

/-- Whether a name that a member declares is neither ignored nor shown to be used by a unit. -/
structure Unaccounted (g : Graph) (records : List InvocationRecord) (artifacts : ArtifactLoader)
    (ignores : IgnoreLoader) (p : PackageId) (k : DependencyKind) (name : String) : Prop where
  member : ∃ m ∈ g.members, m.same p = true
  declared : ∃ es, g.dependencies p = .ok es ∧ ∃ e ∈ es, e.kind = k ∧ e.name = name
  notIgnored : ¬g.Ignores ignores p k (.text name)
  unseen : ∀ r ∈ records, ¬r.Evidences g artifacts p k name

/-- A unit of a package that receives libraries under some aliases. -/
def unitOf (p : PackageId) (externs : List (String × String)) : InvocationRecord where
  package := p
  customBuild := .bool false
  crateName := .text "app"
  crateType := .text "bin"
  extraFilename := "-0"
  capLintsAllow := false
  outDir := Path.ofText "/target"
  externs := externs

/-! ### Moving between identities of one package -/

theorem Graph.ignores_congr (g : Graph) (load : IgnoreLoader) {p q : PackageId}
    (h : p.same q = true) (k : DependencyKind) (v : Value) :
    g.Ignores load p k v ↔ g.Ignores load q k v := by
  simp only [Ignores, package_eq_ok, g.package?_congr h]

theorem Graph.not_ignores_none (g : Graph) (p : PackageId) (k : DependencyKind) (v : Value) :
    ¬g.Ignores (fun _ => .answer none) p k v := by
  rintro ⟨_, t, -, ht, ignored⟩
  cases ht
  cases ignored

theorem InvocationRecord.evidences_congr (r : InvocationRecord) (g : Graph)
    (artifacts : ArtifactLoader) {p q : PackageId} (h : p.same q = true) (k : DependencyKind)
    (name : String) : r.Evidences g artifacts p k name ↔ r.Evidences g artifacts q k name := by
  constructor
  · rintro ⟨hp, hshown⟩
    exact ⟨PackageId.same_trans hp h, g.dependencies_congr h ▸ hshown⟩
  · rintro ⟨hq, hshown⟩
    exact ⟨PackageId.same_trans hq (PackageId.same_symm h), g.dependencies_congr h ▸ hshown⟩

namespace Analysis

variable {g : Graph} {records : List InvocationRecord} {options : RunOptions}
  {artifacts : ArtifactLoader} {ignores : IgnoreLoader} {res : AnalysisResult}

theorem run_eq_ok : (run g records options artifacts ignores).result = .ok res ↔
    ∃ names ambiguities used o, NameTables.ofGraph g = .ok names ∧
      (AmbiguityReport.warnAll names).result = .ok ambiguities ∧
      (UsedDependencies.ofRecords names artifacts records).result = .ok used ∧
      (Outcome.aggregate g names used options ignores).result = .ok o ∧
      res = ⟨o, ambiguities⟩ := by
  unfold run
  constructor
  · intro h
    obtain ⟨names, hnames, h⟩ := Logged.result_bind_eq_ok.1 h
    obtain ⟨ambiguities, ha, h⟩ := Logged.result_bind_eq_ok.1 h
    obtain ⟨used, hu, h⟩ := Logged.result_bind_eq_ok.1 h
    obtain ⟨o, ho, h⟩ := Logged.result_bind_eq_ok.1 h
    obtain ⟨_, -, h⟩ := Logged.result_bind_eq_ok.1 h
    exact ⟨names, ambiguities, used, o, hnames, ha, hu, ho, (Except.ok.inj h).symm⟩
  · rintro ⟨names, ambiguities, used, o, hnames, ha, hu, ho, rfl⟩
    exact Logged.result_bind_eq_ok.2 ⟨names, hnames, Logged.result_bind_eq_ok.2 ⟨ambiguities, ha,
      Logged.result_bind_eq_ok.2 ⟨used, hu, Logged.result_bind_eq_ok.2 ⟨o, ho,
        Logged.result_bind_eq_ok.2 ⟨(), rfl, rfl⟩⟩⟩⟩⟩

/-! ### The listed names -/

theorem mem_reported_iff (hg : g.WellFormed)
    (h : (run g records options artifacts ignores).result = .ok res) (p : PackageId)
    (k : DependencyKind) (v : Value) :
    v ∈ res.outcome.reported p k ↔
      ∃ name, v = .text name ∧ Unaccounted g records artifacts ignores p k name := by
  obtain ⟨names, ambiguities, used, o, hnames, -, hused, ho, rfl⟩ := run_eq_ok.1 h
  have hd := NameTables.describe_ofGraph hg hnames
  rw [Outcome.mem_reported_of_aggregate ho hd.distinct]
  constructor
  · rintro ⟨n, hn, hp, hdeclared, hunused, hignored⟩
    obtain ⟨es, hes, hdescribe⟩ := hd.tables n hn
    obtain ⟨e, he, rfl⟩ := ((hdescribe k).mem_declared v).1 hdeclared
    obtain ⟨m, hm, hs⟩ := hd.members n hn
    have hmem := List.mem_filter.1 he
    refine ⟨e.name, rfl, ⟨m, hm, PackageId.same_trans (PackageId.same_symm hs) hp⟩,
      ⟨es, g.dependencies_congr hp ▸ hes, e, hmem.1, by simpa using hmem.2, rfl⟩, ?_, ?_⟩
    · exact fun ignored => hignored ((g.ignores_congr ignores hp k _).2 ignored)
    · intro r hr shown
      have seen := (UsedDependencies.contains_ofRecords hd hused hn k e.name).2
        ⟨r, hr, (r.evidences_congr g artifacts hp k _).2 shown⟩
      rw [hunused] at seen
      cases seen
  · rintro ⟨name, rfl, ⟨m, hm, hmp⟩, ⟨es, hes, e, he, hk, hname⟩, hignored, hunseen⟩
    obtain ⟨n, hn, hs⟩ := hd.complete m hm
    have hp := PackageId.same_trans hs hmp
    obtain ⟨es', hes', hdescribe⟩ := hd.tables n hn
    cases (g.dependencies_congr hp ▸ hes' : g.dependencies p = .ok es').symm.trans hes
    refine ⟨n, hn, hp, ?_, ?_, fun ignored => hignored ((g.ignores_congr ignores hp k _).1 ignored)⟩
    · exact ((hdescribe k).mem_declared _).2
        ⟨e, List.mem_filter.2 ⟨he, by simpa using hk⟩, by rw [hname]⟩
    · rw [← Bool.not_eq_true, UsedDependencies.contains_ofRecords hd hused hn]
      rintro ⟨r, hr, shown⟩
      exact hunseen r hr ((r.evidences_congr g artifacts hp k _).1 shown)

theorem exists_dependencies_of_run (hg : g.WellFormed)
    (hres : (run g records options artifacts ignores).result = .ok res) {p : PackageId}
    (hm : ∃ m ∈ g.members, m.same p = true) : ∃ es, g.dependencies p = .ok es := by
  obtain ⟨names, ambiguities, used, o, hnames, -⟩ := run_eq_ok.1 hres
  have hd := NameTables.describe_ofGraph hg hnames
  obtain ⟨m, hm, hmp⟩ := hm
  obtain ⟨n, hn, hs⟩ := hd.complete m hm
  obtain ⟨es, hes, -⟩ := hd.tables n hn
  exact ⟨es, g.dependencies_congr (PackageId.same_trans hs hmp) ▸ hes⟩

theorem mem_reported_of_edge (hg : g.WellFormed)
    (hres : (run g records options artifacts ignores).result = .ok res) {p : PackageId}
    (hm : ∃ m ∈ g.members, m.same p = true) {e : Edge} (he : e ∈ g.edges)
    (hs : e.source.same p = true) :
    .text e.name ∈ res.outcome.reported p e.kind ↔
      ¬g.Ignores ignores p e.kind (.text e.name) ∧
        ∀ r ∈ records, ¬r.Evidences g artifacts p e.kind e.name := by
  rw [mem_reported_iff hg hres]
  constructor
  · rintro ⟨name, heq, unaccounted⟩
    cases heq
    exact ⟨unaccounted.notIgnored, unaccounted.unseen⟩
  · rintro ⟨hignored, hunseen⟩
    obtain ⟨es, hes⟩ := exists_dependencies_of_run hg hres hm
    have declared := (Graph.mem_dependencies hes e).2 ⟨he, hs⟩
    exact ⟨e.name, rfl, hm, ⟨es, hes, e, declared, rfl, rfl⟩, hignored, hunseen⟩

theorem success_iff (hg : g.WellFormed)
    (h : (run g records options artifacts ignores).result = .ok res) :
    ∃ b, res.outcome.success = .bool b ∧
      (b = true ↔ ¬∃ p k name, Unaccounted g records artifacts ignores p k name) := by
  have hmem := mem_reported_iff hg h
  obtain ⟨names, ambiguities, used, o, hnames, -, -, ho, rfl⟩ := run_eq_ok.1 h
  have hd := NameTables.describe_ofGraph hg hnames
  have keyed : ∀ n ∈ names, n.package.same n.package = true := fun n hn => by
    obtain ⟨p, hp, heq⟩ := hd.packages n hn
    exact heq ▸ hg.keyed p hp
  obtain ⟨b, hb, hall⟩ := Outcome.success_of_aggregate ho hd.distinct keyed
  refine ⟨b, hb, hall.trans ?_⟩
  constructor
  · rintro none ⟨p, k, name, hu⟩
    exact none p k (.text name) ((hmem p k _).2 ⟨name, rfl, hu⟩)
  · intro none p k v hv
    obtain ⟨name, -, hu⟩ := (hmem p k v).1 hv
    exact none ⟨p, k, name, hu⟩

theorem run_isOk (hg : g.WellFormed) (ht : g.IsTextual)
    (hr : ∀ r ∈ records, r.package.keys?.isSome)
    (ha : ∀ r ∈ records, ∃ a, (artifacts r).result = .ok a)
    (hi : ∀ p ∈ g.packages, ∃ t, (ignores p).result = .ok t) :
    ∃ res, (run g records options artifacts ignores).result = .ok res := by
  obtain ⟨names, hnames⟩ := NameTables.ofGraph_isOk hg ht
  have hd := NameTables.describe_ofGraph hg hnames
  have texts : ∀ n ∈ names, n.IsTextual := fun n hn => by
    obtain ⟨p, hp, heq⟩ := hd.packages n hn
    obtain ⟨es, -, hdescribe⟩ := hd.tables n hn
    exact ⟨heq ▸ (ht.packages p hp).1, fun k => (hdescribe k).declared_isText⟩
  obtain ⟨ambiguities, hambiguities⟩ := hd.exists_warnings
  have collected : ∃ used, (UsedDependencies.ofRecords names artifacts records).result = .ok used :=
    UsedDependencies.addRecords_isOk .empty fun r h => ⟨ha r h, hr r h⟩
  obtain ⟨used, hused⟩ := collected
  have outcome : ∃ o, (Outcome.aggregate g names used options ignores).result = .ok o :=
    Outcome.aggregate_isOk texts hd.known fun n _ p hp => hi p (Graph.of_package hp).1
  obtain ⟨o, ho⟩ := outcome
  exact ⟨_, run_eq_ok.2 ⟨names, ambiguities, used, o, hnames, hambiguities, hused, ho, rfl⟩⟩

theorem exists_run_of_unit (hg : g.WellFormed) (ht : g.IsTextual) (options : RunOptions)
    {p : PackageId} (hp : p.same p = true) (externs : List (String × String))
    (libraries : List String) :
    ∃ res, (run g [unitOf p externs] options (fun _ => .answer ⟨libraries⟩)
      fun _ => .answer none).result = .ok res := by
  refine run_isOk hg ht ?_ (fun _ _ => ⟨_, rfl⟩) fun _ _ => ⟨_, rfl⟩
  intro r hr
  cases List.mem_singleton.1 hr
  exact PackageId.isSome_keys?_of_same hp

/-! ### The verdict -/

/-- What the result of an analysis tells, for every package, kind and name. -/
structure Verdict (g : Graph) (records : List InvocationRecord) (artifacts : ArtifactLoader)
    (ignores : IgnoreLoader) (res : AnalysisResult) : Prop where
  reported : ∀ p k v, v ∈ res.outcome.reported p k ↔
    ∃ name, v = .text name ∧ Unaccounted g records artifacts ignores p k name
  success : ∃ b, res.outcome.success = .bool b ∧
    (b = true ↔ ¬∃ p k name, Unaccounted g records artifacts ignores p k name)
  passes : res.exitCode = 0 ↔ ¬∃ p k name, Unaccounted g records artifacts ignores p k name
  fails : res.exitCode = 1 ↔ ∃ p k name, Unaccounted g records artifacts ignores p k name

theorem verdict_of_run [Whereabouts] {doc : ResolverDocument} (h : Graph.ofDocument doc = .ok g)
    (records : List InvocationRecord) (options : RunOptions) (artifacts : ArtifactLoader)
    (ignores : IgnoreLoader) :
    (doc.IsTextual → (∀ r ∈ records, r.package.keys?.isSome) →
      (∀ r ∈ records, ∃ a, (artifacts r).result = .ok a) →
      (∀ p ∈ g.packages, ∃ t, (ignores p).result = .ok t) →
      ∃ res, (run g records options artifacts ignores).result = .ok res) ∧
    ∀ res, (run g records options artifacts ignores).result = .ok res →
      Verdict g records artifacts ignores res := by
  have hg := Graph.wellFormed_ofDocument h
  refine ⟨fun hdoc => run_isOk hg (Graph.isTextual_ofDocument h hdoc), fun res hres => ?_⟩
  obtain ⟨b, hb, hall⟩ := success_iff hg hres
  refine ⟨mem_reported_iff hg hres, ⟨b, hb, hall⟩, ?_, ?_⟩
  · rw [← hall, AnalysisResult.exitCode, hb]
    cases b <;> simp [Value.isTruthy]
  · rw [← not_iff_not, ← hall, AnalysisResult.exitCode, hb]
    cases b <;> simp [Value.isTruthy]

end Analysis

namespace Analysis

/-- A member that depends on `log` and never uses it. -/
def unusedLog : ResolverDocument :=
  soleMember [⟨some "log", .null, .absent⟩] [("log", "log", .null)] [("log", some "log")]

theorem verdict_of_run_unusedLog : ∃ g res, Graph.ofDocument unusedLog = .ok g ∧
    (run g [unitOf (registryId "app") []] {} (fun _ => .answer ⟨[]⟩)
      fun _ => .answer none).result = .ok res ∧
    Verdict g [unitOf (registryId "app") []] (fun _ => .answer ⟨[]⟩) (fun _ => .answer none)
      res := by
  have h : Graph.ofDocument unusedLog = .ok _ := rfl
  obtain ⟨isOk, verdict⟩ := verdict_of_run h [unitOf (registryId "app") []] {}
    (fun _ => .answer ⟨[]⟩) fun _ => .answer none
  obtain ⟨res, hres⟩ := isOk (isTextual_soleMember _ _ _)
    (by simp [unitOf, registryId, PackageId.keys?_texts])
    (fun _ _ => ⟨_, rfl⟩) (fun _ _ => ⟨_, rfl⟩)
  exact ⟨_, res, h, hres, verdict res hres⟩

end Analysis

end UnusedDeps
