import UnusedDeps.Proofs.Failures.Told
import UnusedDeps.Proofs.Verdict
import UnusedDeps.Report.Json

/-!
# Failures of an analysis

An analysis of a graph of texts fails only where an artifact or an ignore table
cannot be loaded, and it tells what its loaders tell. Artifacts are loaded in the
order of the records, ignore tables in the order of the members that declare a
dependency; after the first failure nothing else is loaded. A report of such an
analysis can always be written. Main statements: `told_run` and `write_isOk`.
-/

namespace UnusedDeps

open Logged (Answers)

/-! ### Artifacts -/

namespace UsedDependencies

variable {names : NameTables} {load : ArtifactLoader} {r : InvocationRecord}

/-- Whether the artifact of a record is loaded and its package can be looked up. -/
def Takes (load : ArtifactLoader) (r : InvocationRecord) : Prop :=
  (load r).Answers ∧ r.package.keys?.isSome = true

/-- Whether a record is taken or refused in words. -/
def Tells (load : ArtifactLoader) (r : InvocationRecord) : Prop :=
  Told (load r).result ∧ ((load r).Answers → r.package.keys?.isSome = true)

theorem answers_addRecord {u : UsedDependencies} :
    (addRecord names load u r).Answers ↔ Takes load r := by
  constructor
  · rintro ⟨u', h⟩
    obtain ⟨a, ha, h⟩ := Logged.result_bind_eq_ok.1 h
    obtain ⟨ks, hks, -⟩ := Logged.result_bind_eq_ok.1 h
    exact ⟨⟨a, ha⟩, Option.isSome_iff_exists.2 ⟨ks, orWrongType_eq_ok.1 hks⟩⟩
  · intro takes
    obtain ⟨u', h⟩ : (addRecords names load u [r]).Answers :=
      addRecords_isOk u fun r' hr' => by
        cases List.mem_singleton.1 hr'
        exact takes
    obtain ⟨u₁, h₁, -⟩ := Logged.result_bind_eq_ok.1 h
    exact ⟨u₁, h₁⟩

theorem answers_addRecords {records : List InvocationRecord} (u : UsedDependencies) :
    (addRecords names load u records).Answers ↔ ∀ r ∈ records, Takes load r := by
  refine ⟨fun h => ?_, addRecords_isOk u⟩
  induction records generalizing u with
  | nil => exact List.forall_mem_nil _
  | cons r records ih =>
    obtain ⟨u', h⟩ := h
    obtain ⟨u₁, h₁, h⟩ := Logged.result_bind_eq_ok.1 h
    exact List.forall_mem_cons.2 ⟨answers_addRecord.1 ⟨u₁, h₁⟩, ih u₁ ⟨u', h⟩⟩

end UsedDependencies

/-! ### Ignore tables -/

/-- Whether the ignore table of a package is asked for on behalf of a member. -/
structure DependencyNames.Asks (n : DependencyNames) (g : Graph) (p : PackageInfo) : Prop where
  declares : n.declaresAny = true
  package : g.package n.package = .ok p

namespace Outcome

variable {g : Graph} {names : NameTables} {used : UsedDependencies} {options : RunOptions}
  {load : IgnoreLoader}

/-- Whether every ignore table that is asked for on behalf of a member is loaded. -/
def Takes (g : Graph) (load : IgnoreLoader) (n : DependencyNames) : Prop :=
  ∀ p, n.Asks g p → (load p).Answers

theorem answers_packageEntry {n : DependencyNames} (texts : n.IsTextual)
    (known : g.Knows n.package) : (packageEntry g used load n).Answers ↔ Takes g load n := by
  constructor
  · rintro ⟨entry, h⟩ p asks
    obtain ⟨t, ht⟩ := settles_of_packageEntry h
    obtain ⟨p', hp', hload⟩ := ht.loaded asks.declares
    cases asks.package.symm.trans hp'
    exact ⟨t, hload⟩
  · intro takes
    cases declares : n.declaresAny with
    | true => exact packageEntry_isOk texts known fun p hp => takes p ⟨declares, hp⟩
    | false =>
      refine ⟨none, ?_⟩
      simp only [packageEntry, declares]
      rfl

theorem exists_sorted (texts : ∀ n ∈ names, n.IsTextual) : ∃ sorted, names.sorted = .ok sorted := by
  have keyed : ∀ n ∈ names, ∃ ss : List String, n.package.keys? = some (ss.map .text) :=
    fun n hn => by
      obtain ⟨a, b, c, -, hkeys⟩ := (texts n hn).package.keys?
      exact ⟨[a, b, c], hkeys⟩
  obtain ⟨sorted, hsorted⟩ := sortByKeys?_isSome keyed
  exact ⟨sorted, orWrongType_eq_ok.2 hsorted⟩

end Outcome

/-! ### The whole analysis -/

namespace Analysis

variable {g : Graph} {records : List InvocationRecord} {options : RunOptions}
  {artifacts : ArtifactLoader} {ignores : IgnoreLoader}

theorem isTextual_of_mem (hg : g.WellFormed) (ht : g.IsTextual) {names : NameTables}
    (h : NameTables.ofGraph g = .ok names) : ∀ n ∈ names, n.IsTextual := fun n hn => by
  have hd := NameTables.describe_ofGraph hg h
  obtain ⟨p, hp, heq⟩ := hd.packages n hn
  obtain ⟨es, -, hdescribe⟩ := hd.tables n hn
  exact ⟨heq ▸ (ht.packages p hp).1, fun k => (hdescribe k).declared_isText⟩

/-- Whether the ignore table of a package comes to be loaded: the members before it had theirs. -/
def AsksFor (g : Graph) (ignores : IgnoreLoader) (p : PackageInfo) : Prop :=
  ∃ names sorted n, NameTables.ofGraph g = .ok names ∧ names.sorted = .ok sorted ∧
    Reached (Outcome.Takes g ignores) sorted n ∧ n.Asks g p

end Analysis

end UnusedDeps
