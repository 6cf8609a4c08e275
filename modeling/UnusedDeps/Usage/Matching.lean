import UnusedDeps.Names.Table
import UnusedDeps.Usage.Artifact

/-!
# Matching units with declared dependencies

A declared dependency is used when a unit of its package refers to a library of
its library name, or receives a library under its alias. Normal and development
dependencies share one set of used names, since a unit does not show which of
the two sections gave it a library.
-/

namespace UnusedDeps

/-- A declared dependency: the package that declares it and its name. -/
structure UsedName where
  package : PackageId
  name : Value
  deriving DecidableEq, Repr

namespace UsedName

/-- The keys of a declared dependency, when its parts have them. -/
def keys? (u : UsedName) : Option (List Key) := do
  return (← u.package.keys?) ++ [← u.name.key?]

/-- Whether two are one declared dependency. -/
def same (u v : UsedName) : Bool := u.keys?.isSome && u.keys? = v.keys?

end UsedName

/-- The declared dependencies that were seen in use. -/
structure UsedDependencies where
  normalDev : List UsedName
  build : List UsedName
  deriving DecidableEq, Repr

namespace UsedDependencies

def empty : UsedDependencies := ⟨[], []⟩

/-- The set that answers for a kind. -/
def forKind (u : UsedDependencies) : DependencyKind → List UsedName
  | .build => u.build
  | _ => u.normalDev

/-- Whether a dependency was seen in use. -/
def contains (u : UsedDependencies) (kind : DependencyKind) (x : UsedName) : Bool :=
  (u.forKind kind).any x.same

/-- The sets with one more dependency. -/
def mark (u : UsedDependencies) (kind : DependencyKind) (x : UsedName) : UsedDependencies :=
  if u.contains kind x then u
  else
    match kind with
    | .build => { u with build := x :: u.build }
    | _ => { u with normalDev := x :: u.normalDev }

/-- The sets with one more dependency, whose parts must be keys. -/
def mark? (u : UsedDependencies) (kind : DependencyKind) (x : UsedName) :
    Except Fault UsedDependencies := do
  let _ ← orWrongType x.keys?
  return u.mark kind x

/-- Whether a dependency, whose parts must be keys, was seen in use. -/
def contains? (u : UsedDependencies) (kind : DependencyKind) (x : UsedName) :
    Except Fault Bool := do
  let _ ← orWrongType x.keys?
  return u.contains kind x

/-- A set in increasing order. -/
def sorted (xs : List UsedName) : Except Fault (List UsedName) :=
  orWrongType (sortByKeys? UsedName.keys? xs)

theorem contains_empty (kind : DependencyKind) (x : UsedName) :
    empty.contains kind x = false := by
  cases kind <;> rfl

/-- A dependency that was marked was seen in use. -/
theorem contains_mark (u : UsedDependencies) (kind : DependencyKind) (x : UsedName)
    (h : x.keys?.isSome) : (u.mark kind x).contains kind x = true := by
  have hx : x.same x = true := by simp [UsedName.same, h]
  unfold mark
  split
  · assumption
  · cases kind <;> simp [contains, forKind, hx]

/-- A mark leaves the set of the other kinds alone. -/
theorem forKind_mark (u : UsedDependencies) (kind other : DependencyKind) (x : UsedName)
    (h : ¬(kind = .build ↔ other = .build)) : (u.mark kind x).forKind other = u.forKind other := by
  unfold mark
  split
  · rfl
  · cases kind <;> cases other <;> simp_all [forKind]

end UsedDependencies

/-- The declared names of one table that a unit uses: those behind the library names it refers to,
and those of the aliases it receives. -/
def NameTable.usedBy (t : NameTable) (a : UsageArtifact) (r : InvocationRecord) : List Value :=
  a.libraries.flatMap t.libraryNames
    ++ r.externs.filterMap fun e => getByKey? t.byAlias (.text e.1)

namespace UsedDependencies

/-- The sets with everything that a unit of a package uses. -/
def markAll (u : UsedDependencies) (names : DependencyNames) (a : UsageArtifact)
    (r : InvocationRecord) : UsedDependencies :=
  DependencyKind.all.foldl
    (fun u kind =>
      ((names.table kind).usedBy a r).foldl (fun u name => u.mark kind ⟨r.package, name⟩) u)
    u

def logger : String := "udeps.analytics.usage"

/-- The sets with everything that one unit uses; its artifact is loaded even when its package has
no tables. -/
def addRecord (names : NameTables) (load : ArtifactLoader) (u : UsedDependencies)
    (r : InvocationRecord) : Logged UsedDependencies := do
  let a ← load r
  let _ ← .ofExcept (orWrongType r.package.keys?)
  match names.get? r.package with
  | none =>
    .log .debug logger ("Skipping " ++ r.package.text ++ ": not a workspace member")
    return u
  | some n => return u.markAll n a r

/-- The sets with everything that a list of units uses. -/
def addRecords (names : NameTables) (load : ArtifactLoader) (u : UsedDependencies) :
    List InvocationRecord → Logged UsedDependencies
  | [] => .answer u
  | r :: rest => do addRecords names load (← addRecord names load u r) rest

/-- What a list of units uses. -/
def ofRecords (names : NameTables) (load : ArtifactLoader) (records : List InvocationRecord) :
    Logged UsedDependencies :=
  addRecords names load empty records

end UsedDependencies

end UnusedDeps
