import UnusedDeps.Proofs.Graph.Coded
import UnusedDeps.Proofs.Usage.Collected

/-!
# The failure that ends an analysis

An analysis can fail in two places, and the failure that comes first ends it. The
artifacts are loaded before the ignore tables, in the order of the records. The
ignore tables of the members that declare a dependency follow, in the order of
their identities, whether or not their dependencies are in use. No other ignore
table is asked for, and every member is a package of the graph. Main statement:
`failures_of_run`.
-/

namespace UnusedDeps

open Logged (Answers)

/-! ### The first one of several -/

/-- An element that stops a strictly increasing list is the least of those that do. -/
theorem reached_iff_least {α : Type} {passed : α → Prop} {R : α → α → Prop} {xs : List α}
    (increasing : xs.Pairwise R) (asymm : ∀ x ∈ xs, ∀ y ∈ xs, R x y → ¬R y x) {x : α} (hx : x ∈ xs)
    (stops : ¬passed x) :
    Reached passed xs x ↔ ∀ y ∈ xs, ¬passed y → y = x ∨ R x y := by
  induction xs with
  | nil => cases hx
  | cons z xs ih =>
    obtain ⟨least, increasing⟩ := List.pairwise_cons.1 increasing
    rw [reached_cons, List.forall_mem_cons]
    by_cases hz : passed z
    · -- The first element does not stop the list, so the rest decides.
      have apart : x ≠ z := fun h => stops (h ▸ hz)
      have hx : x ∈ xs := (List.mem_cons.1 hx).resolve_left apart
      have rest := ih increasing
        (fun x hx y hy => asymm x (List.mem_cons_of_mem z hx) y (List.mem_cons_of_mem z hy)) hx
      rw [or_iff_right apart, and_iff_right hz, rest, and_iff_right fun h => absurd hz h]
    · rw [or_iff_left fun h => hz h.1]
      constructor
      · rintro rfl
        exact ⟨fun _ => .inl rfl, fun y hy _ => .inr (least y hy)⟩
      · rintro ⟨first, -⟩
        rcases List.mem_cons.1 hx with h | h
        · exact h
        · exact (first hz).elim Eq.symm fun before =>
            absurd before (asymm z List.mem_cons_self x hx (least x h))

namespace Logged

theorem bind_congr {α β : Type} {x : Logged α} {f f' : α → Logged β}
    (h : ∀ a, x.result = .ok a → f a = f' a) : x >>= f = x >>= f' := by
  show andThen x f = andThen x f'
  unfold andThen
  cases hx : x.result with
  | error e => rfl
  | ok a =>
    dsimp only
    rw [h a hx]

theorem forEach_congr {α β : Type} {f f' : α → Logged β} {xs : List α}
    (h : ∀ x ∈ xs, f x = f' x) : forEach f xs = forEach f' xs := by
  induction xs with
  | nil => rfl
  | cons x xs ih =>
    rw [List.forall_mem_cons] at h
    rw [forEach, forEach, h.1, ih h.2]

theorem answers_iff {α : Type} {x : Logged α} : x.Answers ↔ ¬∃ f, x.result = .error f := by
  unfold Answers
  cases x.result <;> simp

end Logged

/-! ### Members that declare a dependency -/

/-- Whether a package declares a dependency. -/
def Graph.Declares (g : Graph) (id : PackageId) : Prop := ∃ e ∈ g.edges, e.source.same id = true

theorem NameTables.Describe.declaresAny_iff {g : Graph} {names : NameTables}
    (hd : names.Describe g) {n : DependencyNames} (hn : n ∈ names) :
    n.declaresAny = true ↔ g.Declares n.package := by
  obtain ⟨es, hes, hdescribe⟩ := hd.tables n hn
  constructor
  · intro declares
    by_contra none
    refine absurd declares (Bool.eq_false_iff.1 (Outcome.declaresAny_eq_false.2 fun k => ?_))
    refine List.eq_nil_iff_forall_not_mem.2 fun v hv => none ?_
    obtain ⟨e, he, -⟩ := ((hdescribe k).mem_declared v).1 hv
    exact ⟨e, (Graph.mem_dependencies hes e).1 (List.mem_filter.1 he).1⟩
  · rintro ⟨e, hedge, hs⟩
    have he : e ∈ es.filter fun f => f.kind = e.kind :=
      List.mem_filter.2 ⟨(Graph.mem_dependencies hes e).2 ⟨hedge, hs⟩, by simp⟩
    exact Outcome.declaresAny_of_mem (((hdescribe e.kind).mem_declared _).2 ⟨e, he, rfl⟩)

/-- Whether an analysis asks for the ignore table of a member and cannot load it. -/
structure Graph.Refuses (g : Graph) (ignores : IgnoreLoader) (m : PackageId) (f : Fault) :
    Prop where
  member : m ∈ g.members
  declares : g.Declares m
  refused : ∃ p, g.package m = .ok p ∧ (ignores p).result = .error f

namespace Outcome

variable {g : Graph} {names : NameTables} {used : UsedDependencies} {options : RunOptions}
  {load : IgnoreLoader}

theorem result_packageEntry_eq_error {n : DependencyNames} (texts : n.IsTextual)
    (known : g.Knows n.package) {f : Fault} :
    (packageEntry g used load n).result = .error f ↔
      ∃ p, n.Asks g p ∧ (load p).result = .error f := by
  have fails (p : PackageInfo) (f : Fault) (asks : n.Asks g p) (h : (load p).result = .error f) :
      (packageEntry g used load n).result = .error f := by
    unfold packageEntry
    simp only [asks.declares, if_true, Logged.result_bind_eq_error, Logged.result_ofExcept]
    exact .inr ⟨p, asks.package, .inl h⟩
  refine ⟨fun h => ?_, fun ⟨p, asks, hp⟩ => fails p f asks hp⟩
  by_contra none
  have takes : Takes g load n := fun p asks => Logged.answers_iff.2 fun ⟨f', hf'⟩ => by
    cases h.symm.trans (fails p f' asks hf')
    exact none ⟨p, asks, hf'⟩
  obtain ⟨entry, hentry⟩ : (packageEntry g used load n).Answers :=
    (answers_packageEntry texts known).2 takes
  cases h.symm.trans hentry

theorem result_aggregate_eq_error (texts : ∀ n ∈ names, n.IsTextual)
    (known : ∀ n ∈ names, g.Knows n.package) {sorted : NameTables}
    (order : names.sorted = .ok sorted) {f : Fault} :
    (aggregate g names used options load).result = .error f ↔
      ∃ n, Reached (Takes g load) sorted n ∧ ∃ p, n.Asks g p ∧ (load p).result = .error f := by
  have mem (n : DependencyNames) : n ∈ sorted ↔ n ∈ names :=
    mem_sortByKeys? (orWrongType_eq_ok.1 order) n
  have passed : ∀ n ∈ sorted, (packageEntry g used load n).Answers ↔ Takes g load n := fun n hn =>
    answers_packageEntry (texts n ((mem n).1 hn)) (known n ((mem n).1 hn))
  have entries : (aggregate g names used options load).result = .error f ↔
      (Logged.forEach (packageEntry g used load) sorted).result = .error f := by
    unfold aggregate
    simp only [Logged.result_bind_eq_error, Logged.result_ofExcept, order]
    constructor
    · rintro (h | ⟨_, h, hf | ⟨_, -, hf⟩⟩)
      · cases h
      · cases h
        exact hf
      · cases hf
    · exact fun h => .inr ⟨sorted, rfl, .inl h⟩
  rw [entries, Logged.result_forEach_eq_error]
  refine exists_congr fun n => ?_
  rw [reached_congr passed]
  refine and_congr_right fun reached => ?_
  have hn := (mem n).1 reached.mem
  exact result_packageEntry_eq_error (texts n hn) (known n hn)

/-- Only the ignore tables that are asked for matter. -/
theorem packageEntry_congr {load' : IgnoreLoader} {n : DependencyNames}
    (same : ∀ p, n.Asks g p → load' p = load p) :
    packageEntry g used load' n = packageEntry g used load n := by
  unfold packageEntry
  cases declares : n.declaresAny with
  | false => rfl
  | true =>
    refine Logged.bind_congr fun p hp => ?_
    rw [same p ⟨declares, hp⟩]

end Outcome

/-! ### The whole analysis -/

namespace Analysis

variable {g : Graph} {records : List InvocationRecord} {options : RunOptions}
  {artifacts : ArtifactLoader} {ignores : IgnoreLoader}

/-- The failures of an analysis. -/
structure Failures (g : Graph) (records : List InvocationRecord) (options : RunOptions)
    (artifacts : ArtifactLoader) (ignores : IgnoreLoader) : Prop where
  fails_iff : (∃ f, (run g records options artifacts ignores).result = .error f) ↔
    (∃ r ∈ records, ∃ f, (artifacts r).result = .error f) ∨ ∃ m f, g.Refuses ignores m f
  /-- The failure is that of the first artifact or, where all artifacts are loaded, that of the
  least member. -/
  first : ∀ f, (run g records options artifacts ignores).result = .error f ↔
    (∃ r, Reached (fun r => (artifacts r).Answers) records r ∧ (artifacts r).result = .error f) ∨
    (∀ r ∈ records, (artifacts r).Answers) ∧ ∃ m, g.Refuses ignores m f ∧
      ∀ m' f', g.Refuses ignores m' f' → m' = m ∨ m.Before m'
  /-- No member is missing among the packages. -/
  known : ∀ m ∈ g.members, ∃ p, g.package m = .ok p
  /-- Ignore tables of other packages are never asked for. -/
  unasked : ∀ ignores' : IgnoreLoader,
    (∀ m ∈ g.members, g.Declares m → ∀ p, g.package m = .ok p → ignores' p = ignores p) →
      run g records options artifacts ignores' = run g records options artifacts ignores

/-- Only the ignore tables of members that declare a dependency matter. -/
theorem run_ignores_congr (hg : g.WellFormed) {ignores' : IgnoreLoader}
    (same : ∀ m ∈ g.members, g.Declares m → ∀ p, g.package m = .ok p → ignores' p = ignores p) :
    run g records options artifacts ignores' = run g records options artifacts ignores := by
  unfold run
  refine Logged.bind_congr fun names hnames => Logged.bind_congr fun _ _ =>
    Logged.bind_congr fun used _ => ?_
  have hd := NameTables.describe_ofGraph hg hnames
  suffices h : Outcome.aggregate g names used options ignores' =
      Outcome.aggregate g names used options ignores by rw [h]
  unfold Outcome.aggregate
  refine Logged.bind_congr fun sorted order => ?_
  rw [Logged.forEach_congr fun n hn => Outcome.packageEntry_congr fun p asks => ?_]
  have hn : n ∈ names := (mem_sortByKeys? (orWrongType_eq_ok.1 order) n).1 hn
  obtain ⟨m, hm, hs⟩ := hd.members n hn
  obtain ⟨e, he, hes⟩ := (hd.declaresAny_iff hn).1 asks.declares
  refine same m hm ⟨e, he, PackageId.same_trans hes hs⟩ p ?_
  rw [Graph.package_eq_ok, ← g.package?_congr hs, ← Graph.package_eq_ok]
  exact asks.package

theorem result_run_eq_error {names : NameTables} (hd : names.Describe g)
    (hnames : NameTables.ofGraph g = .ok names) {f : Fault} :
    (run g records options artifacts ignores).result = .error f ↔
      (UsedDependencies.ofRecords names artifacts records).result = .error f ∨
        ∃ used, (UsedDependencies.ofRecords names artifacts records).result = .ok used ∧
          (Outcome.aggregate g names used options ignores).result = .error f := by
  obtain ⟨ambiguities, warned⟩ := hd.exists_warnings
  unfold run
  rw [Logged.result_bind, Logged.result_ofExcept, hnames]
  show ((AmbiguityReport.warnAll names >>= _).result = _) ↔ _
  rw [Logged.result_bind, warned]
  show ((UsedDependencies.ofRecords names artifacts records >>= _).result = _) ↔ _
  rw [Logged.result_bind_eq_error]
  refine or_congr_right (exists_congr fun used => and_congr_right fun _ => ?_)
  rw [Logged.result_bind_eq_error]
  refine or_iff_left ?_
  rintro ⟨o, -, h⟩
  cases h

section Members

variable {names sorted : NameTables} (hd : names.Describe g) (ht : g.IsTextual)

include hd ht

theorem package_mem {n : DependencyNames} (texts : n.IsTextual) (hn : n ∈ names) :
    n.package ∈ g.members := by
  obtain ⟨m, hm, hs⟩ := hd.members n hn
  rw [(texts.package.same_iff (ht.members m hm)).1 hs]
  exact hm

theorem exists_table {m : PackageId} (texts : ∀ n ∈ names, n.IsTextual) (hm : m ∈ g.members) :
    ∃ n ∈ names, n.package = m := by
  obtain ⟨n, hn, hs⟩ := hd.complete m hm
  exact ⟨n, hn, ((texts n hn).package.same_iff (ht.members m hm)).1 hs⟩

theorem refuses_iff {n : DependencyNames} (texts : n.IsTextual) (hn : n ∈ names) {f : Fault} :
    (∃ p, n.Asks g p ∧ (ignores p).result = .error f) ↔ g.Refuses ignores n.package f := by
  constructor
  · rintro ⟨p, asks, hp⟩
    exact ⟨package_mem hd ht texts hn, (hd.declaresAny_iff hn).1 asks.declares, p, asks.package, hp⟩
  · rintro ⟨-, declares, p, hp, h⟩
    exact ⟨p, ⟨(hd.declaresAny_iff hn).2 declares, hp⟩, h⟩

theorem not_takes_iff {n : DependencyNames} (texts : n.IsTextual) (hn : n ∈ names) :
    ¬Outcome.Takes g ignores n ↔ ∃ f, g.Refuses ignores n.package f := by
  simp only [← refuses_iff hd ht texts hn, Outcome.Takes, Logged.answers_iff, not_forall, not_not]
  constructor
  · rintro ⟨p, asks, f, h⟩
    exact ⟨f, p, asks, h⟩
  · rintro ⟨f, p, asks, h⟩
    exact ⟨p, asks, f, h⟩

/-- The first ignore table that cannot be loaded is that of the least member. -/
theorem first_refused_iff (coded : g.IsCoded) (texts : ∀ n ∈ names, n.IsTextual)
    (order : names.sorted = .ok sorted) {f : Fault} :
    (∃ n, Reached (Outcome.Takes g ignores) sorted n ∧
        ∃ p, n.Asks g p ∧ (ignores p).result = .error f) ↔
      ∃ m, g.Refuses ignores m f ∧ ∀ m' f', g.Refuses ignores m' f' → m' = m ∨ m.Before m' := by
  have mem (n : DependencyNames) : n ∈ sorted ↔ n ∈ names :=
    mem_sortByKeys? (orWrongType_eq_ok.1 order) n
  have ids : ∀ n ∈ names, n.package.IsCoded := fun n hn =>
    coded.members _ (package_mem hd ht (texts n hn) hn)
  have increasing : sorted.Pairwise fun n n' => n.package.Before n'.package :=
    pairwise_sortByKeys? (fun n hn => (ids n hn).hasCodedKeys)
      (hd.distinct.imp_of_mem fun {n _} hn _ apart => keys?_ne (ids n hn) apart)
      (orWrongType_eq_ok.1 order)
  have asymm : ∀ n ∈ sorted, ∀ n' ∈ sorted,
      n.package.Before n'.package → ¬n'.package.Before n.package := fun n hn n' hn' before =>
    before.asymm (ids n ((mem n).1 hn)).hasCodedKeys (ids n' ((mem n').1 hn')).hasCodedKeys
  -- Among the tables as among the members, it is the least one that stops the analysis.
  have least (n : DependencyNames) (hn : n ∈ names) (h : g.Refuses ignores n.package f) :
      Reached (Outcome.Takes g ignores) sorted n ↔
        ∀ m' f', g.Refuses ignores m' f' → m' = n.package ∨ n.package.Before m' := by
    have stops := (not_takes_iff hd ht (texts n hn) hn).2 ⟨f, h⟩
    rw [reached_iff_least increasing asymm ((mem n).2 hn) stops]
    constructor
    · intro before m' f' h'
      obtain ⟨n', hn', rfl⟩ := exists_table hd ht texts h'.member
      have stops' := (not_takes_iff hd ht (texts n' hn') hn').2 ⟨f', h'⟩
      exact (before n' ((mem n').2 hn') stops').imp_left fun heq => by rw [heq]
    · intro before n' hn' stops'
      have hn' := (mem n').1 hn'
      obtain ⟨f', h'⟩ := (not_takes_iff hd ht (texts n' hn') hn').1 stops'
      refine (before n'.package f' h').imp_left fun heq => ?_
      have self := (texts n hn).package.same_self
      exact Option.some.inj ((hd.get?_eq hn' (heq ▸ self)).symm.trans (hd.get?_eq hn self))
  constructor
  · rintro ⟨n, reached, asks⟩
    have hn := (mem n).1 reached.mem
    have h := (refuses_iff hd ht (texts n hn) hn).1 asks
    exact ⟨n.package, h, (least n hn h).1 reached⟩
  · rintro ⟨m, h, before⟩
    obtain ⟨n, hn, rfl⟩ := exists_table hd ht texts h.member
    exact ⟨n, (least n hn h).2 before, (refuses_iff hd ht (texts n hn) hn).2 h⟩

theorem exists_first_refused (coded : g.IsCoded) (texts : ∀ n ∈ names, n.IsTextual)
    (order : names.sorted = .ok sorted) {m : PackageId} {f : Fault} (h : g.Refuses ignores m f) :
    ∃ f m, g.Refuses ignores m f ∧ ∀ m' f', g.Refuses ignores m' f' → m' = m ∨ m.Before m' := by
  have mem (n : DependencyNames) : n ∈ sorted ↔ n ∈ names :=
    mem_sortByKeys? (orWrongType_eq_ok.1 order) n
  obtain ⟨n, hn, rfl⟩ := exists_table hd ht texts h.member
  obtain ⟨n', reached, stops⟩ := exists_reached_iff.2
    ⟨n, (mem n).2 hn, (not_takes_iff hd ht (texts n hn) hn).2 ⟨f, h⟩⟩
  have hn' := (mem n').1 reached.mem
  obtain ⟨f', h'⟩ := (not_takes_iff hd ht (texts n' hn') hn').1 stops
  have asks := (refuses_iff hd ht (texts n' hn') hn').2 h'
  exact ⟨f', (first_refused_iff hd ht coded texts order).1 ⟨n', reached, asks⟩⟩

end Members

/-! ### The failures -/

section

variable (hg : g.WellFormed) (ht : g.IsTextual) (coded : g.IsCoded)
  (keyed : ∀ r ∈ records, r.package.keys?.isSome = true)

include hg ht coded keyed

theorem first_failure (f : Fault) :
    (run g records options artifacts ignores).result = .error f ↔
      (∃ r, Reached (fun r => (artifacts r).Answers) records r ∧
        (artifacts r).result = .error f) ∨
      (∀ r ∈ records, (artifacts r).Answers) ∧ ∃ m, g.Refuses ignores m f ∧
        ∀ m' f', g.Refuses ignores m' f' → m' = m ∨ m.Before m' := by
  obtain ⟨names, hnames⟩ := NameTables.ofGraph_isOk hg ht
  have hd := NameTables.describe_ofGraph hg hnames
  have texts := isTextual_of_mem hg ht hnames
  obtain ⟨sorted, order⟩ := Outcome.exists_sorted texts
  have collected : (UsedDependencies.ofRecords names artifacts records).Answers ↔
      ∀ r ∈ records, (artifacts r).Answers := UsedDependencies.answers_ofRecords keyed
  rw [result_run_eq_error hd hnames, ← collected]
  refine or_congr (UsedDependencies.result_addRecords_eq_error keyed .empty) ?_
  simp only [Outcome.result_aggregate_eq_error texts hd.known order,
    first_refused_iff hd ht coded texts order, exists_and_right, Answers]

theorem fails_iff : (∃ f, (run g records options artifacts ignores).result = .error f) ↔
    (∃ r ∈ records, ∃ f, (artifacts r).result = .error f) ∨ ∃ m f, g.Refuses ignores m f := by
  simp only [first_failure hg ht coded keyed]
  constructor
  · rintro ⟨f, ⟨r, reached, h⟩ | ⟨-, m, h, -⟩⟩
    · exact .inl ⟨r, reached.mem, f, h⟩
    · exact .inr ⟨m, f, h⟩
  · intro h
    by_cases loaded : ∀ r ∈ records, (artifacts r).Answers
    · have refused : ∃ m f, g.Refuses ignores m f := by
        refine h.resolve_left ?_
        rintro ⟨r, hr, failed⟩
        exact Logged.answers_iff.1 (loaded r hr) failed
      obtain ⟨m, f, h⟩ := refused
      obtain ⟨names, hnames⟩ := NameTables.ofGraph_isOk hg ht
      have texts := isTextual_of_mem hg ht hnames
      obtain ⟨sorted, order⟩ := Outcome.exists_sorted texts
      obtain ⟨f', first⟩ :=
        exists_first_refused (NameTables.describe_ofGraph hg hnames) ht coded texts order h
      exact ⟨f', .inr ⟨loaded, first⟩⟩
    · have stops : ∃ r ∈ records, ¬(artifacts r).Answers := by simpa using loaded
      obtain ⟨r, reached, failed⟩ := exists_reached_iff.2 stops
      obtain ⟨f, hf⟩ := not_not.1 (mt Logged.answers_iff.2 failed)
      exact ⟨f, .inl ⟨r, reached, hf⟩⟩

end

/-- The failures of an analysis of a document of texts. -/
theorem failures_of_run [Whereabouts] {doc : ResolverDocument} (h : Graph.ofDocument doc = .ok g)
    (textual : doc.IsTextual) (coded : doc.IsCoded)
    (keyed : ∀ r ∈ records, r.package.keys?.isSome = true) (options : RunOptions)
    (artifacts : ArtifactLoader) (ignores : IgnoreLoader) :
    Failures g records options artifacts ignores := by
  have hg := Graph.wellFormed_ofDocument h
  have ht := Graph.isTextual_ofDocument h textual
  have hc := Graph.isCoded_ofDocument h coded
  refine ⟨fails_iff hg ht hc keyed, first_failure hg ht hc keyed, fun m hm => ?_,
    fun ignores' same => run_ignores_congr hg same⟩
  obtain ⟨p, -, hp, -⟩ := (hg.known m hm).package
  exact ⟨p, hp⟩

/-- The one dependency of the member is in use, and still its ignore table ends the analysis. -/
theorem failures_of_run_unusedLog : ∃ g, Graph.ofDocument unusedLog = .ok g ∧
    Failures g [unitOf (registryId "app") []] {} (fun _ => .answer ⟨["log"]⟩)
      (fun p => .failWith (.unreadableManifest p.manifestPath .notToml)) ∧
    (run g [unitOf (registryId "app") []] {} (fun _ => .answer ⟨["log"]⟩)
      fun p => .failWith (.unreadableManifest p.manifestPath .notToml)).result =
        .error (.problem (.unreadableManifest (Path.ofText "/Cargo.toml") .notToml)) := by
  let e : Edge := ⟨registryId "app", registryId "log", .normal, "log", .text "log",
    some (.text "log")⟩
  let g : Graph := ⟨[registryPackage "app" none, registryPackage "log" (some "log")], [e],
    [registryId "app"]⟩
  have h : Graph.ofDocument unusedLog = .ok g := rfl
  have entries : unusedLog.packageEntries =
      [("app", [⟨some "log", .null, .absent⟩], none), ("log", [], some "log")].map
        fun p => registryEntry p.1 p.2.1 p.2.2 := rfl
  have coded : unusedLog.IsCoded := by
    refine isCoded_of_registry entries ?_ ?_
    · simp only [List.forall_mem_cons, List.not_mem_nil, false_imp_iff, implies_true, and_true]
      exact ⟨Text.isCoded_of_plain (by decide), Text.isCoded_of_plain (by decide)⟩
    · simp
  have failures := failures_of_run h (isTextual_soleMember _ _ _) coded
    (by simp [unitOf, registryId, PackageId.keys?_texts] :
      ∀ r ∈ [unitOf (registryId "app") []], r.package.keys?.isSome = true)
    {} (fun _ => .answer ⟨["log"]⟩)
    fun p => .failWith (.unreadableManifest p.manifestPath .notToml)
  refine ⟨g, h, failures, ?_⟩
  refine (failures.first _).2 (.inr ⟨fun _ _ => ⟨_, rfl⟩, registryId "app", ?_, ?_⟩)
  · exact ⟨List.mem_cons_self, ⟨e, List.mem_cons_self, by decide⟩, registryPackage "app" none, rfl,
      rfl⟩
  · exact fun m' f' other => .inl (List.mem_singleton.1 other.member)

end Analysis

end UnusedDeps
