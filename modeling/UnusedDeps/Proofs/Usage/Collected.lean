import UnusedDeps.Proofs.Failures.Analysis

/-!
# Evidence from a set of units

Units arrive in whatever order a build or a directory listing gives them, and a
unit that was replayed arrives twice. What is collected from them depends on the
set of units only: it is marked by one of them or not at all, so lists of units
go together by union, and those of packages without tables can be left out. The
order decides one thing, which failure ends a collection that fails. Main
statement: `collectsAsSet`.
-/

namespace UnusedDeps

open Logged (Answers)

namespace UsedDependencies

variable {names : NameTables} {load : ArtifactLoader} {records : List InvocationRecord}

/-- Whether the same dependencies were seen in use. -/
def Same (u v : UsedDependencies) : Prop := ∀ k y, u.contains k y = v.contains k y

/-- Whether the dependencies that were seen in use are those of two others together. -/
def IsUnion (w u v : UsedDependencies) : Prop :=
  ∀ k y, w.contains k y = (u.contains k y || v.contains k y)

/-- Whether the package of a unit has tables. -/
def IsKnown (names : NameTables) (r : InvocationRecord) : Bool := (names.get? r.package).isSome

/-! ### One unit -/

theorem result_addRecord_eq_error {u : UsedDependencies} {r : InvocationRecord}
    (keyed : r.package.keys?.isSome = true) {f : Fault} :
    (addRecord names load u r).result = .error f ↔ (load r).result = .error f := by
  refine ⟨fun h => ?_, fun h => Logged.result_bind_eq_error.2 (.inl h)⟩
  refine (Logged.result_bind_eq_error.1 h).resolve_right ?_
  rintro ⟨a, ha, -⟩
  obtain ⟨u', hu⟩ : (addRecord names load u r).Answers := answers_addRecord.2 ⟨⟨a, ha⟩, keyed⟩
  cases h.symm.trans hu

/-- A unit of a package without tables changes nothing. -/
theorem eq_of_addRecord_unknown {u u' : UsedDependencies} {r : InvocationRecord}
    (unknown : IsKnown names r = false) (h : (addRecord names load u r).result = .ok u') :
    u' = u := by
  obtain ⟨a, -, h⟩ := Logged.result_bind_eq_ok.1 h
  obtain ⟨ks, -, h⟩ := Logged.result_bind_eq_ok.1 h
  have absent : names.get? r.package = none := by simpa [IsKnown] using unknown
  rw [absent] at h
  obtain ⟨_, -, h⟩ := Logged.result_bind_eq_ok.1 h
  cases h
  rfl

/-! ### A list of units -/

/-- A collection fails as the first artifact that cannot be loaded. -/
theorem result_addRecords_eq_error (keyed : ∀ r ∈ records, r.package.keys?.isSome = true)
    (u : UsedDependencies) {f : Fault} :
    (addRecords names load u records).result = .error f ↔
      ∃ r, Reached (fun r => (load r).Answers) records r ∧ (load r).result = .error f := by
  induction records generalizing u with
  | nil =>
    refine ⟨(nomatch ·), ?_⟩
    rintro ⟨r, reached, -⟩
    exact absurd reached (not_reached_nil _ r)
  | cons r records ih =>
    obtain ⟨hr, keyed⟩ := List.forall_mem_cons.1 keyed
    rw [addRecords, Logged.result_bind_eq_error, exists_reached_cons,
      result_addRecord_eq_error hr]
    refine or_congr_right ?_
    constructor
    · rintro ⟨u₁, h₁, h⟩
      exact ⟨(answers_addRecord.1 ⟨u₁, h₁⟩).1, (ih keyed u₁).1 h⟩
    · rintro ⟨answers, h⟩
      obtain ⟨u₁, h₁⟩ := answers_addRecord.2 ⟨answers, hr⟩
      exact ⟨u₁, h₁, (ih keyed u₁).2 h⟩

theorem answers_ofRecords (keyed : ∀ r ∈ records, r.package.keys?.isSome = true) :
    (ofRecords names load records).Answers ↔ ∀ r ∈ records, (load r).Answers := by
  rw [ofRecords, answers_addRecords]
  exact forall₂_congr fun r hr => and_iff_left (keyed r hr)

/-- Units of packages without tables can be left out. -/
theorem addRecords_filter {u u' : UsedDependencies}
    (h : (addRecords names load u records).result = .ok u') :
    (addRecords names load u (records.filter (IsKnown names))).result = .ok u' := by
  induction records generalizing u with
  | nil => exact h
  | cons r records ih =>
    obtain ⟨u₁, h₁, h⟩ := Logged.result_bind_eq_ok.1 h
    cases known : IsKnown names r with
    | true =>
      rw [List.filter_cons_of_pos known]
      exact Logged.result_bind_eq_ok.2 ⟨u₁, h₁, ih h⟩
    | false =>
      rw [List.filter_cons_of_neg (by simp [known])]
      exact ih (eq_of_addRecord_unknown known h₁ ▸ h)

/-! ### The set of units -/

/-- What a collection owes to the set of its units, and what to their order. -/
structure CollectsAsSet (names : NameTables) (load : ArtifactLoader)
    (records : List InvocationRecord) : Prop where
  /-- There is a collection exactly when every artifact is loaded, packages without tables
  included. -/
  answers_iff : (ofRecords names load records).Answers ↔ ∀ r ∈ records, (load r).Answers
  /-- A collection fails as the first artifact that cannot be loaded. -/
  fails_iff : ∀ f, (ofRecords names load records).result = .error f ↔
    ∃ r, Reached (fun r => (load r).Answers) records r ∧ (load r).result = .error f
  /-- Lists of units go together by union. -/
  union : ∀ more u v, (ofRecords names load records).result = .ok u →
    (ofRecords names load more).result = .ok v →
      ∃ w, (ofRecords names load (records ++ more)).result = .ok w ∧ w.IsUnion u v
  /-- Units of packages without tables contribute nothing. -/
  onlyKnown : ∀ u, (ofRecords names load records).result = .ok u →
    (ofRecords names load (records.filter (IsKnown names))).result = .ok u
  /-- The order of the units does not count, and neither does how often each of them arrives. -/
  sameUnits : ∀ others u, (∀ r, r ∈ others ↔ r ∈ records) →
    (ofRecords names load records).result = .ok u →
      ∃ v, (ofRecords names load others).result = .ok v ∧ v.Same u

theorem contains_ofRecords_iff {u : UsedDependencies}
    (h : (ofRecords names load records).result = .ok u) (k : DependencyKind) (y : UsedName) :
    u.contains k y = true ↔ ∃ r ∈ records, Supported names load k y r := by
  rw [contains_addRecords h, contains_empty]
  simp only [Bool.false_eq_true, false_or]

theorem isUnion_ofRecords_append {more : List InvocationRecord} {u v w : UsedDependencies}
    (hu : (ofRecords names load records).result = .ok u)
    (hv : (ofRecords names load more).result = .ok v)
    (hw : (ofRecords names load (records ++ more)).result = .ok w) : w.IsUnion u v := by
  intro k y
  rw [Bool.eq_iff_iff, Bool.or_eq_true, contains_ofRecords_iff hu, contains_ofRecords_iff hv,
    contains_ofRecords_iff hw]
  simp only [List.mem_append, or_and_right, exists_or]

theorem same_of_sameUnits {others : List InvocationRecord} {u v : UsedDependencies}
    (units : ∀ r, r ∈ others ↔ r ∈ records) (hu : (ofRecords names load records).result = .ok u)
    (hv : (ofRecords names load others).result = .ok v) : v.Same u := by
  intro k y
  rw [Bool.eq_iff_iff, contains_ofRecords_iff hu, contains_ofRecords_iff hv]
  simp only [units]

/-- What is collected depends on the set of units only. -/
theorem collectsAsSet (names : NameTables) (load : ArtifactLoader) (records : List InvocationRecord)
    (keyed : ∀ r ∈ records, r.package.keys?.isSome = true) :
    CollectsAsSet names load records where
  answers_iff := answers_ofRecords keyed
  fails_iff f := result_addRecords_eq_error keyed .empty
  union more u v hu hv := by
    have takes := (answers_addRecords _).1 ⟨u, hu⟩
    have takes' := (answers_addRecords _).1 ⟨v, hv⟩
    have all : ∀ r ∈ records ++ more, Takes load r := List.forall_mem_append.2 ⟨takes, takes'⟩
    obtain ⟨w, hw⟩ : (addRecords names load .empty (records ++ more)).Answers :=
      (answers_addRecords _).2 all
    exact ⟨w, hw, isUnion_ofRecords_append hu hv hw⟩
  onlyKnown u hu := addRecords_filter hu
  sameUnits others u units hu := by
    have takes := (answers_addRecords _).1 ⟨u, hu⟩
    obtain ⟨v, hv⟩ : (addRecords names load .empty others).Answers :=
      (answers_addRecords _).2 fun r hr => takes r ((units r).1 hr)
    exact ⟨v, hv, same_of_sameUnits units hu hv⟩

/-- The tables of a package `app` that depends on `log`. -/
def logTables : NameTables :=
  [⟨registryId "app", ⟨[(.text "log", .text "log")], [("log", [.text "log"])], []⟩, .empty, .empty⟩]

/-- Of two units the second one is of a package without tables. -/
theorem collectsAsSet_two :
    CollectsAsSet logTables (fun _ => .answer ⟨["log"]⟩)
        [unitOf (registryId "app") [], unitOf (registryId "other") []] ∧
      ∃ u, (ofRecords logTables (fun _ => .answer ⟨["log"]⟩)
          [unitOf (registryId "app") [], unitOf (registryId "other") []]).result = .ok u ∧
        u.contains .normal ⟨registryId "app", .text "log"⟩ = true := by
  refine ⟨collectsAsSet _ _ _ ?_, _, rfl, by decide⟩
  simp [unitOf, registryId, PackageId.keys?_texts]

end UsedDependencies

end UnusedDeps
