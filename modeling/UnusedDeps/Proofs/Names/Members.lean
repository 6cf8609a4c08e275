import UnusedDeps.Proofs.Graph.Textual
import UnusedDeps.Proofs.Names.Tables

/-!
# The tables of the members

The analysis makes one table for each kind of each member of the workspace. The
members of a graph that a document gives are distinct packages of it, so a
package has tables exactly when it is a member, and only one set of them. Over a
graph of texts nothing on the way to the tables, or to the warnings about them,
can fail.
-/

namespace UnusedDeps

/-! ### Dependencies of a package -/

theorem Graph.dependencies_congr (g : Graph) {id id' : PackageId} (h : id.same id' = true) :
    g.dependencies id = g.dependencies id' := by
  unfold dependencies
  congr 3
  funext e
  exact Bool.eq_iff_iff.2 ⟨fun hs => PackageId.same_trans hs h,
    fun hs => PackageId.same_trans hs (PackageId.same_symm h)⟩

theorem Graph.package?_congr (g : Graph) {id id' : PackageId} (h : id.same id' = true) :
    g.package? id = g.package? id' := by
  unfold package?
  congr 1
  funext p
  exact Bool.eq_iff_iff.2 ⟨fun hs => PackageId.same_trans hs h,
    fun hs => PackageId.same_trans hs (PackageId.same_symm h)⟩

theorem Graph.IsTextual.dependencies_isOk {g : Graph} (hg : g.IsTextual) (id : PackageId) :
    ∃ es, g.dependencies id = .ok es := by
  have keyed : ∀ e ∈ g.edges.filter (·.source.same id),
      ∃ ss : List String, e.sortKeys? = some (ss.map .text) := fun e he => by
    obtain ⟨-, htarget, -⟩ := hg.edges e (List.mem_filter.1 he).1
    obtain ⟨n, v, s, -, hkeys⟩ := htarget.keys?
    exact ⟨[e.kind.text, e.name, n, v, s], by rw [Edge.sortKeys?, hkeys]; rfl⟩
  obtain ⟨es, hes⟩ := sortByKeys?_isSome keyed
  exact ⟨es, orWrongType_eq_ok.2 hes⟩

namespace DependencyNames

/-- Whether the tables of a package describe its dependencies, kind by kind. -/
def Describe (n : DependencyNames) (es : List Edge) : Prop :=
  ∀ k, (n.table k).Describes (es.filter fun e => e.kind = k)

theorem describe_ofGraph {g : Graph} {id : PackageId} {n : DependencyNames}
    (h : ofGraph g id = .ok n) :
    n.package = id ∧ ∃ es, g.dependencies id = .ok es ∧ n.Describe es := by
  obtain ⟨es, hes, h⟩ := bind_eq_ok.1 h
  obtain ⟨normal, hnormal, h⟩ := bind_eq_ok.1 h
  obtain ⟨development, hdevelopment, h⟩ := bind_eq_ok.1 h
  obtain ⟨build, hbuild, h⟩ := bind_eq_ok.1 h
  cases pure_eq_ok.1 h
  refine ⟨rfl, es, hes, fun k => ?_⟩
  cases k with
  | normal => exact NameTable.describes_ofNames hnormal
  | development => exact NameTable.describes_ofNames hdevelopment
  | build => exact NameTable.describes_ofNames hbuild

theorem ofGraph_isOk {g : Graph} (hg : g.IsTextual) (id : PackageId) :
    ∃ n, ofGraph g id = .ok n := by
  obtain ⟨es, hes⟩ := hg.dependencies_isOk id
  have each (k : DependencyKind) :
      ∃ t, NameTable.ofNames ((es.filter fun e => e.kind = k).map Edge.declaredName) = .ok t :=
    NameTable.ofNames_isOk_iff.2 fun e he => by
      have hedge := ((Graph.mem_dependencies hes e).1 (List.mem_filter.1 he).1).1
      obtain ⟨-, -, received, library⟩ := hg.edges e hedge
      exact Edge.isListable_of_isText received library
  obtain ⟨normal, hnormal⟩ := each .normal
  obtain ⟨development, hdevelopment⟩ := each .development
  obtain ⟨build, hbuild⟩ := each .build
  exact ⟨⟨id, normal, development, build⟩, bind_eq_ok.2 ⟨es, hes, bind_eq_ok.2 ⟨normal, hnormal,
    bind_eq_ok.2 ⟨development, hdevelopment, bind_eq_ok.2 ⟨build, hbuild, rfl⟩⟩⟩⟩⟩

end DependencyNames

/-! ### Members -/

namespace NameTables

/-- What the tables of a workspace say of its graph. -/
structure Describe (g : Graph) (names : NameTables) : Prop where
  members : ∀ n ∈ names, ∃ m ∈ g.members, n.package.same m = true
  complete : ∀ m ∈ g.members, ∃ n ∈ names, n.package.same m = true
  distinct : names.Pairwise fun n n' => n.package.same n'.package = false
  packages : ∀ n ∈ names, ∃ p ∈ g.packages, n.package = p.id
  known : ∀ n ∈ names, g.Knows n.package
  tables : ∀ n ∈ names, ∃ es, g.dependencies n.package = .ok es ∧ n.Describe es

theorem describe_ofGraph {g : Graph} {names : NameTables} (hg : g.WellFormed)
    (h : ofGraph g = .ok names) : names.Describe g := by
  obtain ⟨ms, hms, h⟩ := bind_eq_ok.1 h
  obtain ⟨ps, hps, h⟩ := bind_eq_ok.1 h
  have perm := sortByKeys?_perm (orWrongType_eq_ok.1 hms)
  have packages := mapM_eq_ok.1 hps
  have tables := mapM_eq_ok.1 h
  -- A member, its package and the tables of it go together.
  have ofTables : ∀ n ∈ names, ∃ p ∈ ps, n.package = p.id ∧
      ∃ es, g.dependencies p.id = .ok es ∧ n.Describe es := fun n hn => by
    obtain ⟨p, hp, hof⟩ := exists_left_of_forall₂ tables hn
    exact ⟨p, hp, DependencyNames.describe_ofGraph hof⟩
  have ofPackage : ∀ p ∈ ps, ∃ m ∈ g.members, p ∈ g.packages ∧ p.id.same m = true := fun p hp => by
    obtain ⟨m, hm, hof⟩ := exists_left_of_forall₂ packages hp
    exact ⟨m, perm.mem_iff.1 hm, Graph.of_package hof⟩
  refine ⟨fun n hn => ?_, fun m hm => ?_, ?_, fun n hn => ?_, fun n hn => ?_, fun n hn => ?_⟩
  · obtain ⟨p, hp, heq, -⟩ := ofTables n hn
    obtain ⟨m, hm, -, hs⟩ := ofPackage p hp
    exact ⟨m, hm, heq ▸ hs⟩
  · obtain ⟨p, hp, hof⟩ := exists_right_of_forall₂ packages (perm.mem_iff.2 hm)
    obtain ⟨n, hn, hnames⟩ := exists_right_of_forall₂ tables hp
    obtain ⟨heq, -⟩ := DependencyNames.describe_ofGraph hnames
    exact ⟨n, hn, heq ▸ (Graph.of_package hof).2⟩
  · have members : ms.Pairwise fun m m' => m.same m' = false :=
      (perm.pairwise_iff fun {m m'} hs => (PackageId.same_comm m' m).trans hs).2 hg.membersDistinct
    have distinct : ps.Pairwise fun p p' => p.id.same p'.id = false :=
      pairwise_of_forall₂ packages members fun hp hp' apart => Bool.eq_false_iff.2 fun hs =>
        Bool.eq_false_iff.1 apart (PackageId.same_trans
          (PackageId.same_symm (Graph.of_package hp).2)
          (PackageId.same_trans hs (Graph.of_package hp').2))
    refine pairwise_of_forall₂ tables distinct fun hn hn' apart => ?_
    rw [(DependencyNames.describe_ofGraph hn).1, (DependencyNames.describe_ofGraph hn').1]
    exact apart
  · obtain ⟨p, hp, heq, -⟩ := ofTables n hn
    obtain ⟨-, -, hpackage, -⟩ := ofPackage p hp
    exact ⟨p, hpackage, heq⟩
  · obtain ⟨p, hp, heq, -⟩ := ofTables n hn
    obtain ⟨-, -, hpackage, -⟩ := ofPackage p hp
    exact ⟨p, hpackage, heq ▸ hg.keyed p hpackage⟩
  · obtain ⟨p, hp, heq, es, hes, hdescribe⟩ := ofTables n hn
    exact ⟨es, heq ▸ hes, hdescribe⟩

theorem ofGraph_isOk {g : Graph} (hg : g.WellFormed) (ht : g.IsTextual) :
    ∃ names, ofGraph g = .ok names := by
  have keyed : ∀ m ∈ g.members, ∃ ss : List String, m.keys? = some (ss.map .text) := fun m hm => by
    obtain ⟨n, v, s, -, hkeys⟩ := (ht.members m hm).keys?
    exact ⟨[n, v, s], hkeys⟩
  obtain ⟨ms, hms⟩ := sortByKeys?_isSome keyed
  have packages : ∀ m ∈ ms, ∃ p, g.package m = .ok p := fun m hm => by
    obtain ⟨p, -, hp, -⟩ := (hg.known m ((mem_sortByKeys? hms m).1 hm)).package
    exact ⟨p, hp⟩
  obtain ⟨ps, hps⟩ := forall₂_of_forall_exists packages
  have tables : ∀ p ∈ ps, ∃ n, DependencyNames.ofGraph g p.id = .ok n := fun p _ =>
    DependencyNames.ofGraph_isOk ht p.id
  obtain ⟨names, hnames⟩ := forall₂_of_forall_exists tables
  exact ⟨names, bind_eq_ok.2 ⟨ms, orWrongType_eq_ok.2 hms, bind_eq_ok.2 ⟨ps, mapM_eq_ok.2 hps,
    mapM_eq_ok.2 hnames⟩⟩⟩

theorem Describe.get?_eq {g : Graph} {names : NameTables} (h : names.Describe g) {id : PackageId}
    {n : DependencyNames} (hn : n ∈ names) (hs : n.package.same id = true) :
    names.get? id = some n :=
  PackageId.find?_same_eq h.distinct hn hs

end NameTables

/-! ### Warnings -/

namespace AmbiguityReport

theorem setAll_isText {vs : List Value} {library : String} {found : List (Value × String)}
    (hfound : ∀ e ∈ found, e.1.IsText) (hvs : ∀ v ∈ vs, v.IsText) :
    ∀ e ∈ vs.foldl (fun m n => setByKey n library m) found, e.1.IsText := by
  induction vs generalizing found with
  | nil => exact hfound
  | cons v vs ih =>
    refine ih (fun e he => ?_) fun w hw => hvs w (List.mem_cons_of_mem v hw)
    rcases key_of_mem_setByKey he with heq | ⟨f, hf, heq⟩
    · exact heq ▸ hvs v List.mem_cons_self
    · exact heq ▸ hfound f hf

theorem collisions_isText {found : List (Value × String)} {t : NameTable}
    (hfound : ∀ e ∈ found, e.1.IsText) (ht : ∀ e ∈ t.byLibrary, ∀ v ∈ e.2, v.IsText) :
    ∀ e ∈ collisions found t, e.1.IsText := by
  unfold collisions
  generalize t.byLibrary = entries at ht
  induction entries generalizing found with
  | nil => exact hfound
  | cons entry entries ih =>
    refine ih ?_ fun e he => ht e (List.mem_cons_of_mem entry he)
    dsimp only
    split
    · exact setAll_isText hfound (ht entry List.mem_cons_self)
    · exact hfound

theorem sortedNames_isOk {names : List (Value × String)} (h : ∀ e ∈ names, e.1.IsText) :
    ∃ sorted, sortedNames names = .ok sorted := by
  have keyed : ∀ e ∈ names, ∃ ss : List String, keysOf? [e.1, .text e.2] = some (ss.map .text) :=
    fun e he => by
      obtain ⟨s, hs⟩ := h e he
      exact ⟨[s, e.2], by rw [hs]; rfl⟩
  obtain ⟨sorted, hsorted⟩ := sortByKeys?_isSome keyed
  exact ⟨sorted, orWrongType_eq_ok.2 hsorted⟩

theorem branchLines_isOk (edge joint label : String) {names : List (Value × String)}
    (h : ∀ e ∈ names, e.1.IsText) : ∃ lines, branchLines edge joint label names = .ok lines := by
  unfold branchLines
  split
  · exact ⟨[], rfl⟩
  · obtain ⟨sorted, hsorted⟩ := sortedNames_isOk h
    exact ⟨_, bind_eq_ok.2 ⟨sorted, hsorted, rfl⟩⟩

theorem treeLines_isOk {r : AmbiguityReport} (hnormal : ∀ e ∈ r.normalDev, e.1.IsText)
    (hbuild : ∀ e ∈ r.build, e.1.IsText) : ∃ lines, r.treeLines = .ok lines := by
  obtain ⟨build, hb⟩ := branchLines_isOk " " "└" "build-dependencies" hbuild
  unfold treeLines
  split
  rename_i edge joint _
  obtain ⟨normal, hn⟩ := branchLines_isOk edge joint "(dev-)dependencies" hnormal
  exact ⟨_, bind_eq_ok.2 ⟨normal, hn, bind_eq_ok.2 ⟨build, hb, rfl⟩⟩⟩

theorem warn_isOk {r : AmbiguityReport} (hnormal : ∀ e ∈ r.normalDev, e.1.IsText)
    (hbuild : ∀ e ∈ r.build, e.1.IsText) : ∃ r', (warn r).result = .ok r' := by
  obtain ⟨lines, hlines⟩ := treeLines_isOk hnormal hbuild
  have htext : r.text = .ok _ := bind_eq_ok.2 ⟨lines, hlines, rfl⟩
  exact ⟨r, Logged.result_bind_eq_ok.2 ⟨_, htext, Logged.result_bind_eq_ok.2 ⟨(), rfl, rfl⟩⟩⟩

theorem warnAll_isOk {names : NameTables}
    (h : ∀ n ∈ names, ∀ k, ∀ e ∈ (n.table k).byLibrary, ∀ v ∈ e.2, v.IsText) :
    ∃ reports, (warnAll names).result = .ok reports := by
  have each : ∀ r ∈ ofTables names, ∃ r', (warn r).result = .ok r' := fun r hr => by
    obtain ⟨n, hn, rfl⟩ := List.mem_map.1 (List.mem_filter.1 hr).1
    have none : ∀ e ∈ ([] : List (Value × String)), e.1.IsText := fun _ he =>
      absurd he List.not_mem_nil
    exact warn_isOk
      (collisions_isText (collisions_isText none (h n hn .normal)) (h n hn .development))
      (collisions_isText none (h n hn .build))
  obtain ⟨reports, hreports⟩ := forall₂_of_forall_exists each
  exact ⟨reports, Logged.result_forEach_eq_ok.2 hreports⟩

end AmbiguityReport

/-- The tables of a graph can always be warned about. -/
theorem NameTables.Describe.exists_warnings {g : Graph} {names : NameTables}
    (h : names.Describe g) : ∃ reports, (AmbiguityReport.warnAll names).result = .ok reports :=
  AmbiguityReport.warnAll_isOk fun n hn k => by
    obtain ⟨es, -, hdescribe⟩ := h.tables n hn
    exact (hdescribe k).byLibrary_isText

end UnusedDeps
