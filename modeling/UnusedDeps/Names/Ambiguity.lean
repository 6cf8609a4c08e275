import UnusedDeps.Logged
import UnusedDeps.Names.Table

/-!
# Ambiguous library names

Two dependencies of one kind whose libraries have the same name cannot be told
apart in a build. Collisions are found within each kind; those of normal and
development dependencies are reported together.
-/

namespace UnusedDeps

/-- The colliding declared names of a package, each with the library name they share. -/
structure AmbiguityReport where
  package : PackageId
  normalDev : List (Value × String)
  build : List (Value × String)
  deriving DecidableEq, Repr

namespace AmbiguityReport

/-- The colliding names of one table, added to those found before. -/
def collisions (found : List (Value × String)) (t : NameTable) : List (Value × String) :=
  t.byLibrary.foldl
    (fun found (library, names) =>
      if 1 < names.length then names.foldl (fun m n => setByKey n library m) found else found)
    found

def ofNames (n : DependencyNames) : AmbiguityReport where
  package := n.package
  normalDev := collisions (collisions [] n.normal) n.development
  build := collisions [] n.build

/-- Whether nothing collides. -/
def isEmpty (r : AmbiguityReport) : Bool := r.normalDev.isEmpty && r.build.isEmpty

/-! ### The warning -/

/-- What the warning says before it names the package. -/
def heading : String :=
  "Currently `cargo-udeps` cannot distinguish multiple crates with the same `lib` name. "
    ++ "This may cause false negative"

/-- The lines of the leaves of a branch; `edge` is what stands below the joint of the branch. -/
def leafLines (edge : String) : List (Value × String) → List String
  | [] => []
  | (name, library) :: rest =>
    let joint := if rest.isEmpty then "└" else "├"
    (edge ++ "    " ++ joint ++ "─── \"" ++ name.plainText ++ "\" → \"" ++ library ++ "\"")
      :: leafLines edge rest

/-- The colliding names of a branch in increasing order. -/
def sortedNames (names : List (Value × String)) : Except Fault (List (Value × String)) :=
  orWrongType (sortByKeys? (fun e => keysOf? [e.1, .text e.2]) names)

/-- The lines of a branch, none when nothing collides in it. -/
def branchLines (edge joint label : String) (names : List (Value × String)) :
    Except Fault (List String) :=
  if names.isEmpty then .ok []
  else do return (joint ++ "─── " ++ label) :: leafLines edge (← sortedNames names)

def treeLines (r : AmbiguityReport) : Except Fault (List String) := do
  let (edge, joint) := if r.build.isEmpty then (" ", "└") else ("│", "├")
  let normalDev ← branchLines edge joint "(dev-)dependencies" r.normalDev
  let build ← branchLines " " "└" "build-dependencies" r.build
  return normalDev ++ build

/-- The warning. -/
def text (r : AmbiguityReport) : Except Fault String := do
  return String.intercalate "\n" (heading :: ("`" ++ r.package.text ++ "`") :: (← r.treeLines))

def logger : String := "udeps.graphs.ambiguity"

/-- The reports of packages with collisions, in the order of the identities. -/
def ofTables (names : NameTables) : List AmbiguityReport :=
  (names.map ofNames).filter fun r => !r.isEmpty

/-- The step that logs a report as a warning. -/
def warn (r : AmbiguityReport) : Logged AmbiguityReport := do
  .log .warning logger (← .ofExcept r.text)
  return r

/-- The reports, each of them logged as a warning. -/
def warnAll (names : NameTables) : Logged (List AmbiguityReport) :=
  Logged.forEach warn (ofTables names)

end AmbiguityReport

end UnusedDeps
