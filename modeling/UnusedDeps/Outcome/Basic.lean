import UnusedDeps.Ignore.Table
import UnusedDeps.Options.Run
import UnusedDeps.Usage.Matching

/-!
# Outcomes

The outcome of a run lists the declared dependencies that were neither seen in
use nor put on the ignore table of their package. A package is listed when it
declares a dependency that was not seen in use, even if all of those are
ignored; the run succeeds when no name is listed. An outcome can also be made by
hand, with values that are no texts; not all of those can be put in order.
-/

namespace UnusedDeps

/-- The unused dependencies of one package, each list in increasing order. -/
structure UnusedEntry where
  manifestPath : Value
  normal : List Value
  development : List Value
  build : List Value
  deriving DecidableEq, Repr

namespace UnusedEntry

def names (e : UnusedEntry) : DependencyKind → List Value
  | .normal => e.normal
  | .development => e.development
  | .build => e.build

def isEmpty (e : UnusedEntry) : Bool :=
  e.normal.isEmpty && e.development.isEmpty && e.build.isEmpty

def toValue (e : UnusedEntry) : Value :=
  .table [
    ("manifest_path", e.manifestPath),
    ("normal", .list e.normal),
    ("development", .list e.development),
    ("build", .list e.build)]

end UnusedEntry

/-- The unused dependencies of several packages. -/
abbrev UnusedEntries := List (PackageId × UnusedEntry)

namespace UnusedEntries

/-- The entries with that of a package, which must be a key; a package that is there keeps its
place. -/
def set (es : UnusedEntries) (id : PackageId) (e : UnusedEntry) : Except Fault UnusedEntries := do
  let _ ← orWrongType id.keys?
  if es.any (·.1.same id) then
    return es.map fun f => if f.1.same id then (f.1, e) else f
  else return es ++ [(id, e)]

def ofPairs (pairs : List (PackageId × UnusedEntry)) : Except Fault UnusedEntries :=
  pairs.foldlM (fun es e => set es e.1 e.2) []

/-- The entries in the order of the identities. -/
def sorted (es : UnusedEntries) : Except Fault UnusedEntries :=
  orWrongType (sortByKeys? (·.1.keys?) es)

theorem mem_sorted {es fs : UnusedEntries} (h : sorted es = .ok fs) (e : PackageId × UnusedEntry) :
    e ∈ fs ↔ e ∈ es :=
  mem_sortByKeys? (eq_some_of_orWrongType h) e

end UnusedEntries

/-- The outcome of a run. -/
structure Outcome where
  /-- Whether no name is listed. -/
  success : Value
  /-- The listed packages. -/
  unused : UnusedEntries
  /-- What a reader is told beside the names; null is nothing. -/
  note : Value
  deriving DecidableEq

namespace Outcome

/-- The outcome as a table, whose packages are named by the texts of their identities. -/
def toValue (o : Outcome) : Except Fault Value := do
  let entries ← o.unused.sorted
  return .table [
    ("success", o.success),
    ("unused_deps", .table (Mapping.ofPairs (entries.map fun e => (e.1.text, e.2.toValue)))),
    ("note", o.note)]

/-! ### The note -/

/-- The note that other targets may use a dependency. -/
def noteOtherTargets : String := "Note: These dependencies might be used by other targets.\n"

/-- The hint that goes with it when no target was chosen. -/
def noteAllTargets : String :=
  "      To find dependencies that are not used by any target, enable `--all-targets`.\n"

/-- The note on dependencies without a library. -/
def noteNonLibrary : String :=
  "Note: Some dependencies are non-library packages.\n"
    ++ "      `cargo-udeps` regards them as unused.\n"

def noteFalsePositive : String :=
  "Note: They might be false-positive.\n"
    ++ "      For example, `cargo-udeps` cannot detect usage of crates that are only used in "
    ++ "doc-tests.\n"
    ++ "      To ignore some of dependencies, write `package.metadata.cargo-udeps.ignore` in "
    ++ "Cargo.toml.\n"

/-- The note of an outcome with unused dependencies. -/
def buildNote (options : RunOptions) (names : NameTables) : String :=
  (if options.allTargets then ""
    else noteOtherTargets ++ if options.hasTargetSelection then "" else noteAllTargets)
    ++ (if names.any (·.hasNonLibrary) then noteNonLibrary else "")
    ++ noteFalsePositive

end Outcome

end UnusedDeps
