import UnusedDeps.Files.Tree
import UnusedDeps.Graph.Basic
import UnusedDeps.Ignore.Table
import UnusedDeps.Outcome.Aggregate
import UnusedDeps.Toml.Reader

/-!
# Ignore tables from manifests

The metadata of a package comes from the resolver document. Where that has none,
the manifest itself is read, if it is a file.
-/

namespace UnusedDeps

namespace Manifest

/-- A field of a table that is a table itself. -/
def subtable? (fields : Fields) (name : String) : Option Fields :=
  match Mapping.get? fields name with
  | some (.table t) => some t
  | _ => none

def metadataOf (manifest : Fields) : Option Fields := do
  subtable? (← subtable? manifest "package") "metadata"

def readMetadata (files : FileTree) (path : Path) : Except Fault (Option Fields) := do
  let s ← files.readOr path (.unreadableManifest path)
  let manifest ← (Toml.read s).mapError (.ofToml (.problem (.unreadableManifest path .notToml)))
  return metadataOf manifest

end Manifest

namespace IgnoreTable

def logger : String := "udeps.config.manifest"

/-- The metadata of a package, read from its manifest when the package brings none. -/
def metadataFor (files : FileTree) (p : PackageInfo) : Logged (Option Metadata) :=
  if p.metadata.isEmpty then
    match files.isFile p.manifestPath with
    | .error f => .fail (.file f p.manifestPath)
    | .ok false => .answer none
    | .ok true => do
      .log .debug logger ("Reading package metadata from " ++ p.manifestPath.text)
      return (← .ofExcept (Manifest.readMetadata files p.manifestPath)).map Metadata.ofFields
  else .answer (some p.metadata)

def load (files : FileTree) : IgnoreLoader := fun p => do
  let metadata ← metadataFor files p
  .ofExcept ((ofMetadata metadata (some p.manifestPath)).mapError .problem)

end IgnoreTable

end UnusedDeps
