import UnusedDeps.Spool.Index
import UnusedDeps.Toolchain.Config

/-!
# What a wrapper is told

A build tells the wrappers that it starts about itself by variables: where the
spool directory is, and which executable compiled units receive. The variables
of a wrapper also name the package whose unit is about to be compiled.
-/

namespace UnusedDeps

/-- What a build tells its wrappers. -/
structure WrapperContext where
  spoolDirectory : Path
  packages : PackagesIndex
  cargoExe : Option String

namespace WrapperContext

/-- The context that the variables of a wrapper give; none outside a build. -/
def ofEnvironment (files : FileTree) (env : Environment) :
    Except Fault (Option WrapperContext) :=
  match env.nonempty? Spool.directoryVariable with
  | none => .ok none
  | some s => do
    let directory := Path.ofText s
    let packages ← PackagesIndex.read files (directory.child Spool.indexName)
    return some ⟨directory, packages, Mapping.get? env Spool.executableVariable⟩

/-- The source of a package that the index does not know. -/
def unknownSource : String := "unknown"

/-- The package that stands in the index for the manifest directory. -/
def indexed? [Whereabouts] (c : WrapperContext) (env : Environment) :
    Except Fault (Option PackageId) :=
  match Mapping.get? env "CARGO_MANIFEST_DIR" with
  | none => .ok none
  | some directory =>
    let p := Path.ofText directory
    match p.fault? with
    | some f => .error (.ofName f)
    | none => .ok (Mapping.get? c.packages p.resolve)

/-- The package that the variables name by themselves. -/
def named? (env : Environment) : Option PackageId :=
  (Mapping.get? env "CARGO_PKG_NAME").map fun name =>
    ⟨.text name, .text ((Mapping.get? env "CARGO_PKG_VERSION").getD ""), .text unknownSource⟩

/-- The package whose unit is about to be compiled. -/
def package? [Whereabouts] (c : WrapperContext) (env : Environment) :
    Except Fault (Option PackageId) := do
  return (← c.indexed? env).orElse fun _ => named? env

end WrapperContext

end UnusedDeps
