import UnusedDeps.Graph.Basic
import UnusedDeps.Mapping

/-!
# Names that the compiler sees

For each package and kind a table leads from the names that appear in a build,
which are the aliases of libraries and the names of libraries, back to the
declared names. Declared dependencies without a library are kept apart. Names
are found again as keys; one that is no key cannot stand in a table.
-/

namespace UnusedDeps

/-- A declared dependency as the tables of names see it. -/
structure DeclaredName where
  /-- The key under which the manifest declares the dependency. -/
  name : Value
  /-- The name under which the compiler receives the library. -/
  externName : Value
  /-- The name of the library, where there is one. -/
  library : Option Value
  deriving DecidableEq, Repr

/-- The names of a resolved dependency. -/
def Edge.declaredName (e : Edge) : DeclaredName := ⟨.text e.name, e.externName, e.targetLib⟩

/-- The names of the dependencies of one package and kind. -/
structure NameTable where
  /-- The declared name of each alias. -/
  byAlias : List (Value × Value)
  /-- The declared names behind each library name. -/
  byLibrary : Mapping String (List Value)
  /-- The declared names without a library. -/
  nonLibrary : List Value
  deriving DecidableEq, Repr

namespace NameTable

def empty : NameTable := ⟨[], [], []⟩

def libraryNames (t : NameTable) (library : String) : List Value :=
  (Mapping.get? t.byLibrary library).getD []

/-- The table with one more dependency that has a library. -/
def addLibrary (t : NameTable) (name externName : Value) (library : String) : NameTable :=
  { t with
    byAlias := setByKey externName name t.byAlias
    byLibrary := Mapping.set library (insertKey (t.libraryNames library) name) t.byLibrary }

/-- The table with one more dependency. -/
def add (t : NameTable) (d : DeclaredName) : Except Fault NameTable := do
  let _ ← orWrongType d.name.key?
  match d.library with
  | none => return { t with nonLibrary := insertKey t.nonLibrary d.name }
  | some (.text library) =>
    let _ ← orWrongType d.externName.key?
    return t.addLibrary d.name d.externName (Text.underscored library)
  | some _ => throw .wrongType

/-- The table of dependencies of one kind. -/
def ofNames (names : List DeclaredName) : Except Fault NameTable := names.foldlM add empty

def declared (t : NameTable) : List Value :=
  distinctKeys (t.byAlias.map (·.2) ++ t.byLibrary.flatMap (·.2) ++ t.nonLibrary)

/-- Every declared name, in increasing order. -/
def sortedNames (t : NameTable) : Except Fault (List Value) :=
  orWrongType (sortValues? t.declared)

end NameTable

/-- The tables of one package. -/
structure DependencyNames where
  package : PackageId
  normal : NameTable
  development : NameTable
  build : NameTable
  deriving DecidableEq, Repr

namespace DependencyNames

def table (n : DependencyNames) : DependencyKind → NameTable
  | .normal => n.normal
  | .development => n.development
  | .build => n.build

def hasNonLibrary (n : DependencyNames) : Bool :=
  DependencyKind.all.any fun k => !(n.table k).nonLibrary.isEmpty

def declaresAny (n : DependencyNames) : Bool :=
  DependencyKind.all.any fun k => !(n.table k).declared.isEmpty

def ofGraph (g : Graph) (id : PackageId) : Except Fault DependencyNames := do
  let edges ← g.dependencies id
  let ofKind (k : DependencyKind) :=
    NameTable.ofNames ((edges.filter fun e => e.kind = k).map Edge.declaredName)
  return ⟨id, ← ofKind .normal, ← ofKind .development, ← ofKind .build⟩

end DependencyNames

/-- The tables of several packages. -/
abbrev NameTables := List DependencyNames

namespace NameTables

def get? (names : NameTables) (id : PackageId) : Option DependencyNames :=
  names.find? (·.package.same id)

/-- The tables in the order of the identities of their packages. -/
def sorted (names : NameTables) : Except Fault NameTables :=
  orWrongType (sortByKeys? (·.package.keys?) names)

/-- The tables of the members of a workspace, in the order of their identities. -/
def ofGraph (g : Graph) : Except Fault NameTables := do
  let members ← (← g.sortedMembers).mapM g.package
  members.mapM fun p => DependencyNames.ofGraph g p.id

end NameTables

end UnusedDeps
