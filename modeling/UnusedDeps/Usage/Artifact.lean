import UnusedDeps.Files.Tree
import UnusedDeps.Invocation.Record
import UnusedDeps.Json.Document
import UnusedDeps.Logged
import UnusedDeps.Schema.Read

/-!
# Usage artifacts

For each unit of a local package the compiler writes a document that lists the
external crates the unit refers to. Only their names are kept. A document with
any fault gives no name at all.
-/

namespace UnusedDeps

/-- The names of the libraries that a unit refers to. -/
structure UsageArtifact where
  libraries : List String
  deriving DecidableEq, Repr

namespace UsageArtifact

/-! ### The document -/

def readCrateId (fields : Fields) : Checked String :=
  (Checked.both (Read.required fields "name" Read.text)
    (Read.optional fields "disambiguator" none (Read.nullable (Read.pair Read.int)))).map (·.1)

/-- The name of an external crate. -/
def readCrate (fields : Fields) : Checked String :=
  let id := Read.required fields "id" (Read.table readCrateId)
  let file := Read.optional fields "file_name" none (Read.nullable Read.text)
  let num := Read.optional fields "num" none (Read.nullable Read.int)
  (Checked.both (Checked.both id file) num).map (·.1.1)

/-- The names of the external crates. -/
def readPrelude (fields : Fields) : Checked (List String) :=
  Read.optional fields "external_crates" [] (Read.listOr .notList (Read.table readCrate))

/-- The names of the external crates of a document. -/
def readDocument : Value → Checked (List String) :=
  Read.table fun fields =>
    (Read.optional fields "prelude" none (Read.nullable (Read.table readPrelude))).map
      (·.getD [])

/-- The artifact written in a JSON text. -/
def ofJson (s : String) : Checked UsageArtifact :=
  match Json.artifact s with
  | .error _ => Checked.fault .notJson
  | .ok v => (readDocument v).map .mk

/-! ### Loading -/

def logger : String := "udeps.ingestion.save_analysis"

/-- The artifact of a unit, read from its file. -/
def load (files : FileTree) (r : InvocationRecord) : Logged UsageArtifact := do
  let path ← .ofExcept r.artifactPath
  let problem := Problem.unreadableArtifact r.crateName.plainText path r.package.text
  .log .info logger ("Loading save analysis from " ++ path.text)
  let s ← .ofExcept (files.readOr path problem)
  .ofExcept ((ofJson s).mapError fun faults => .problem (problem (.schema faults)))

end UsageArtifact

/-- A way to get the artifact of a unit. -/
abbrev ArtifactLoader := InvocationRecord → Logged UsageArtifact

namespace ArtifactLoader

/-- The names of libraries that a value lists; all of them must be keys. -/
def librariesOf (v : Value) : Except Fault (List String) := do
  let items ← orWrongType v.elements?
  let keys ← orWrongType (keysOf? items)
  return keys.filterMap fun
    | .text s => some s
    | _ => none

/-- The loader that answers from a table by crate name. -/
def ofTable (table : Fields) : ArtifactLoader := fun r => do
  match ← .ofExcept (orWrongType r.crateName.key?) with
  | .text name =>
    match Mapping.get? table name with
    | some v => return ⟨← .ofExcept (librariesOf v)⟩
    | none => .failWith (.noArtifact name)
  | _ => .failWith (.noArtifact r.crateName.plainText)

end ArtifactLoader

end UnusedDeps
