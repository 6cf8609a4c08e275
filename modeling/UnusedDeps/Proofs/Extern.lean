import Mathlib
import UnusedDeps.Proofs.Verdict

/-!
# Dependencies that a unit receives under an alias

A unit that receives a library under an alias shows that the last dependency
under that alias is used, kind by kind. Dependencies of one kind can share an
alias, and entries for one key of the manifest replace each other in the graph,
so an alias can be lost. Main statement: an entry is never listed in a run with
a unit that receives its alias exactly when, for some kind that shares its set,
the last dependency under the alias stands under the same key.
-/

namespace UnusedDeps

namespace Analysis

variable {g : Graph} {records : List InvocationRecord} {options : RunOptions}
  {artifacts : ArtifactLoader} {ignores : IgnoreLoader} {res : AnalysisResult} {p : PackageId}

/-- A unit that receives an alias shows the name that stands last under it. -/
theorem not_reported_of_alias (hg : g.WellFormed)
    (hres : (run g records options artifacts ignores).result = .ok res) {a : Value}
    {r : InvocationRecord} (hr : r ∈ records) (hp : r.package.same p = true)
    {x : String × String} (hx : x ∈ r.externs) (ha : a.sameKey (.text x.1) = true)
    {es : List Edge} (hes : g.dependencies p = .ok es) {k k' : DependencyKind}
    (shares : k.SharesUse k') {f : Edge}
    (hlast : lastUnderAlias (es.filter fun e => e.kind = k') a = some f) :
    .text f.name ∉ res.outcome.reported p k := by
  intro listed
  obtain ⟨name, heq, unaccounted⟩ := (mem_reported_iff hg hres p k _).1 listed
  cases heq
  obtain ⟨names, ambiguities, used, o, -, -, hused, -, -⟩ := run_eq_ok.1 hres
  obtain ⟨artifact, hartifact⟩ := UsedDependencies.exists_artifact hused hr
  rw [lastUnderAlias_congr _ ha] at hlast
  exact unaccounted.unseen r hr
    ⟨hp, artifact, es, k', hartifact, hes, shares, .throughAlias x f hx hlast rfl⟩

/-- A unit that receives only an alias, and refers to no library, shows nothing else. -/
theorem exists_run_with (hg : g.WellFormed) (ht : g.IsTextual) (options : RunOptions)
    (hm : ∃ m ∈ g.members, m.same p = true) {es : List Edge} (hes : g.dependencies p = .ok es)
    {e : Edge} (he : e ∈ es) {a : String}
    (hlost : ∀ k f, e.kind.SharesUse k →
      lastUnderAlias (es.filter fun f => f.kind = k) (.text a) = some f → f.name ≠ e.name) :
    ∃ res, (run g [unitOf p [(a, "")]] options (fun _ => .answer ⟨[]⟩)
        fun _ => .answer none).result = .ok res ∧
      .text e.name ∈ res.outcome.reported p e.kind := by
  obtain ⟨hedge, hs⟩ := (Graph.mem_dependencies hes e).1 he
  have self : p.same p = true := PackageId.same_trans (PackageId.same_symm hs) hs
  obtain ⟨res, hres⟩ := exists_run_of_unit hg ht options self [(a, "")] []
  refine ⟨res, hres, (mem_reported_of_edge hg hres hm hedge hs).2
    ⟨g.not_ignores_none p e.kind _, ?_⟩⟩
  rintro r hr ⟨-, artifact, es', k, hartifact, hes', shares, shown⟩
  cases List.mem_singleton.1 hr
  cases hartifact
  cases hes.symm.trans hes'
  cases shown with
  | throughLibrary f l hf hname hl hused => exact List.not_mem_nil hused
  | throughAlias x f hx hlast hname =>
    cases List.mem_singleton.1 hx
    exact hlost k f shares hlast hname

/-- Whether a name is listed in no run with a unit that receives an alias. -/
def NeverListedUnder (g : Graph) (p : PackageId) (k : DependencyKind) (name : String)
    (a : Value) : Prop :=
  ∀ records options artifacts ignores res,
    (∃ r ∈ records, r.package.same p = true ∧ ∃ x ∈ r.externs, a.sameKey (.text x.1) = true) →
    (run g records options artifacts ignores).result = .ok res →
    .text name ∉ res.outcome.reported p k

/-- Whether a name stands last under an alias, for one of the kinds that share a set. -/
def StandsUnder (g : Graph) (p : PackageId) (k : DependencyKind) (name : String)
    (a : Value) : Prop :=
  ∃ es k' f, g.dependencies p = .ok es ∧ k.SharesUse k' ∧
    lastUnderAlias (es.filter fun e => e.kind = k') a = some f ∧ f.name = name

/-- When an entry of a document is listed in no run with a unit that receives its alias. -/
theorem never_listed_under_iff [Whereabouts] {doc : ResolverDocument}
    (h : Graph.ofDocument doc = .ok g)
    {d : DependencyEntry} {kind : Option Value} {e : Edge} (hgives : doc.Gives p d kind e)
    (hm : ∃ m ∈ g.members, m.same p = true) :
    (StandsUnder g p e.kind e.name e.externName →
      NeverListedUnder g p e.kind e.name e.externName) ∧
    (doc.IsTextual → NeverListedUnder g p e.kind e.name e.externName →
      StandsUnder g p e.kind e.name e.externName) := by
  have hg := Graph.wellFormed_ofDocument h
  constructor
  · rintro ⟨es, k, f, hes, shares, hlast, hname⟩ records options artifacts ignores res
      ⟨r, hr, hp, x, hx, ha⟩ hres
    rw [← hname]
    exact not_reported_of_alias hg hres hr hp hx ha hes shares hlast
  · intro hdoc never
    have ht := Graph.isTextual_ofDocument h hdoc
    obtain ⟨es, hes⟩ := ht.dependencies_isOk p
    obtain ⟨a, ha⟩ := hgives.externName_isText hdoc
    obtain ⟨f, hf, hentry⟩ := Graph.exists_edge_of_gives h hgives
    obtain ⟨hsource, -, hkind, hname⟩ := Edge.sameEntry_iff.1 hentry
    have hs : f.source.same p = true := by
      obtain ⟨t, nodes, es', ids, -, hgiven⟩ := hgives
      exact hgiven.edge_eq.1 ▸ hsource
    by_contra lost
    have hlost : ∀ k f', f.kind.SharesUse k →
        lastUnderAlias (es.filter fun f => f.kind = k) (.text a) = some f' → f'.name ≠ f.name :=
      fun k f' shares hlast heq =>
        lost ⟨es, k, f', hes, hkind ▸ shares, ha ▸ hlast, heq.trans hname⟩
    obtain ⟨res, hres, listed⟩ :=
      exists_run_with hg ht {} hm hes ((Graph.mem_dependencies hes f).2 ⟨hf, hs⟩) hlost
    rw [hname, hkind] at listed
    have self : p.same p = true := PackageId.same_trans (PackageId.same_symm hs) hs
    have received : ∃ r ∈ [unitOf p [(a, "")]], r.package.same p = true ∧
        ∃ x ∈ r.externs, e.externName.sameKey (.text x.1) = true :=
      ⟨_, List.mem_singleton.2 rfl, self, _, List.mem_singleton.2 rfl,
        by rw [ha, Value.sameKey_texts]⟩
    exact never _ {} _ _ res received hres listed

theorem never_listed_under_unusedLog : ∃ g, Graph.ofDocument unusedLog = .ok g ∧
    NeverListedUnder g (registryId "app") .normal "log" (.text "log") := by
  let log : Edge :=
    ⟨registryId "app", registryId "log", .normal, "log", .text "log", some (.text "log")⟩
  have h : Graph.ofDocument unusedLog = .ok ⟨[registryPackage "app" none,
      registryPackage "log" (some "log")], [log], [registryId "app"]⟩ := rfl
  have gives : unusedLog.Gives (registryId "app")
      ⟨.text "log", some (.text "log"), .given [some .null]⟩ (some .null) log :=
    ⟨_, _, _, _, ⟨⟨_, rfl, rfl⟩, ⟨_, rfl, rfl⟩, rfl, _, rfl, rfl⟩,
      ⟨_, _, List.mem_singleton.2 rfl, rfl, rfl, List.mem_singleton.2 rfl⟩,
      ⟨_, rfl, List.mem_singleton.2 rfl⟩, _, rfl, rfl⟩
  refine ⟨_, h, (never_listed_under_iff h gives
    ⟨registryId "app", List.mem_singleton.2 rfl, rfl⟩).1 ?_⟩
  exact ⟨[log], .normal, log, by cbv, Iff.rfl, rfl, rfl⟩

/-- A member with two dependencies whose keys give one alias. -/
def sharedAlias : ResolverDocument :=
  soleMember [⟨some "left", .null, .given "foo-bar"⟩, ⟨some "right", .null, .given "foo_bar"⟩]
    [("left", "foo_bar", .null), ("right", "foo_bar", .null)]
    [("left", some "left"), ("right", some "right")]

theorem reported_sharedAlias : ∃ g d e records artifacts ignores res,
    Graph.ofDocument sharedAlias = .ok g ∧ registryId "app" ∈ g.members ∧
      sharedAlias.Gives (registryId "app") d (some .null) e ∧ e.targetLib ≠ none ∧
      (∃ r ∈ records, r.package.same (registryId "app") = true ∧
        ∃ x ∈ r.externs, e.externName.sameKey (.text x.1) = true) ∧
      (run g records {} artifacts ignores).result = .ok res ∧
      .text e.name ∈ res.outcome.reported (registryId "app") e.kind := by
  have textual : sharedAlias.IsTextual := isTextual_soleMember _ _ _
  let left : Edge := ⟨registryId "app", registryId "left", .normal, "foo-bar", .text "foo_bar",
    some (.text "left")⟩
  let right : Edge := ⟨registryId "app", registryId "right", .normal, "foo_bar", .text "foo_bar",
    some (.text "right")⟩
  let g : Graph := ⟨[registryPackage "app" none, registryPackage "left" (some "left"),
    registryPackage "right" (some "right")], [left, right], [registryId "app"]⟩
  have h : Graph.ofDocument sharedAlias = .ok g := rfl
  have gives : sharedAlias.Gives (registryId "app")
      ⟨.text "left", some (.text "foo_bar"), .given [some .null]⟩ (some .null) left :=
    ⟨_, _, _, _, ⟨⟨_, rfl, rfl⟩, ⟨_, rfl, rfl⟩, rfl, _, rfl, rfl⟩,
      ⟨_, _, List.mem_singleton.2 rfl, rfl, rfl, List.mem_cons_self⟩,
      ⟨_, rfl, List.mem_singleton.2 rfl⟩, _, rfl, rfl⟩
  have sorted : g.dependencies (registryId "app") = .ok [left, right] := by cbv
  -- Under the alias stands the later of the two keys.
  have hlost : ∀ k f, left.kind.SharesUse k → lastUnderAlias ([left, right].filter
      fun f => f.kind = k) (.text "foo_bar") = some f → f.name ≠ left.name := by
    intro k f shares hlast
    cases k with
    | normal =>
      have hright : right = f := Option.some.inj hlast
      rw [← hright]
      decide
    | development => cases hlast
    | build => cases shares.2 rfl
  obtain ⟨res, hres, listed⟩ := exists_run_with (Graph.wellFormed_ofDocument h)
    (Graph.isTextual_ofDocument h textual) {} ⟨registryId "app", List.mem_singleton.2 rfl, rfl⟩
    sorted List.mem_cons_self hlost
  refine ⟨g, _, left, _, _, _, res, h, List.mem_singleton.2 rfl, gives, by simp [left], ?_, hres,
    listed⟩
  exact ⟨_, List.mem_singleton.2 rfl, rfl, _, List.mem_singleton.2 rfl, rfl⟩

end Analysis

end UnusedDeps
