import UnusedDeps.Package.Id
import UnusedDeps.Package.Kind
import UnusedDeps.Package.Metadata
import UnusedDeps.Problem.Basic

/-!
# Resolved graphs

A graph holds the resolved packages, the declared dependencies between them as
edges, and the members of the workspace. Packages and members are listed in the
order of their identities, the edges of a package by kind, name and target. A
document that mixes texts with other values can give identities that cannot be
compared; listing those is a fault.
-/

namespace UnusedDeps

/-- A resolved package with the fields that the analysis reads. -/
structure PackageInfo where
  id : PackageId
  manifestPath : Path
  /-- The name of the library target, where there is one. -/
  libName : Option Value
  metadata : Metadata

/-- A declared dependency. -/
structure Edge where
  source : PackageId
  target : PackageId
  kind : DependencyKind
  /-- The key under which the manifest declares the dependency. -/
  name : String
  /-- The name under which the compiler receives the library. -/
  externName : Value
  /-- The library target of the target package, where it has one. -/
  targetLib : Option Value
  deriving DecidableEq, Repr

namespace Edge

/-- Whether two edges stand for the same entry of a manifest and the same target. -/
def sameEntry (e f : Edge) : Bool :=
  e.source.same f.source && e.target.same f.target && e.kind = f.kind && e.name = f.name

def sortKeys? (e : Edge) : Option (List Key) :=
  e.target.keys?.map fun ks => .text e.kind.text :: .text e.name :: ks

end Edge

/-- A resolved graph. -/
structure Graph where
  packages : List PackageInfo
  edges : List Edge
  members : List PackageId

namespace Graph

def package? (g : Graph) (id : PackageId) : Option PackageInfo := g.packages.find? (·.id.same id)

/-- The package with an identity, which must be one of the graph. -/
def package (g : Graph) (id : PackageId) : Except Fault PackageInfo :=
  match g.package? id with
  | some p => .ok p
  | none => .error (.problem (.unknownPackage (.text id.text)))

/-- Every package in the order of the identities. -/
def sortedPackages (g : Graph) : Except Fault (List PackageInfo) :=
  orWrongType (sortByKeys? (·.id.keys?) g.packages)

/-- The members of the workspace in the order of their identities. -/
def sortedMembers (g : Graph) : Except Fault (List PackageId) :=
  orWrongType (sortByKeys? PackageId.keys? g.members)

/-- The declared dependencies of a package of the graph by kind, name and target. -/
def dependencies (g : Graph) (id : PackageId) : Except Fault (List Edge) :=
  orWrongType (sortByKeys? Edge.sortKeys? (g.edges.filter (·.source.same id)))

theorem mem_dependencies {g : Graph} {id : PackageId} {es : List Edge}
    (h : g.dependencies id = .ok es) (e : Edge) :
    e ∈ es ↔ e ∈ g.edges ∧ e.source.same id = true := by
  rw [mem_sortByKeys? (eq_some_of_orWrongType h), List.mem_filter]

/-- The graph with one more package; a package that is there already keeps its place. -/
def addPackage (g : Graph) (p : PackageInfo) : Graph :=
  { g with
    packages :=
      if g.packages.any (·.id.same p.id) then
        g.packages.map fun q => if q.id.same p.id then p else q
      else g.packages ++ [p] }

/-- The graph with one more edge; an edge for the same entry and target is replaced. -/
def addEdge (g : Graph) (e : Edge) : Graph :=
  { g with
    edges :=
      if g.edges.any e.sameEntry then g.edges.map fun f => if e.sameEntry f then e else f
      else g.edges ++ [e] }

/-- The graph with one more member, unless it is there already. -/
def addMember (g : Graph) (id : PackageId) : Graph :=
  { g with members := if g.members.any (·.same id) then g.members else g.members ++ [id] }

end Graph

end UnusedDeps
