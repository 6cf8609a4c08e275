import UnusedDeps.Package.Metadata
import UnusedDeps.Value.Equality

/-!
# Resolver documents

The document that `cargo metadata` prints, as far as the analysis reads it:
package entries with their targets and declared dependencies, the resolved nodes
with their dependency entries, and the workspace members. A field can be left
out or have the wrong type; which of the two it is matters only when the field
is read, so both are kept. Names that are only compared or passed on may be any
values. An entry of a list that is no table is `none`.
-/

namespace UnusedDeps

/-- A field of a document: left out, of the wrong type, or given. -/
inductive Field (α : Type) where
  | absent
  | malformed
  | given (a : α)
  deriving Repr

namespace Field

/-- The field as read from a value that may be left out. -/
def ofOption {α : Type} (read : Value → Field α) : Option Value → Field α
  | none => .absent
  | some v => read v

def text : Value → Field String
  | .text s => .given s
  | _ => .malformed

/-- A text that counts as left out when the value is not true. -/
def truthyText (v : Value) : Field String := if v.isTruthy then text v else .absent

def elements (v : Value) : Field (List Value) :=
  match v.elements? with
  | some items => .given items
  | none => .malformed

/-- The elements of a value, each read as an entry. -/
def entries {α : Type} (read : Fields → α) (v : Value) : Field (List (Option α)) :=
  match v.elements? with
  | some items => .given (items.map fun
    | .table fields => some (read fields)
    | _ => none)
  | none => .malformed

end Field

/-- A dependency as a manifest declares it. -/
structure Declaration where
  /-- The name of the package depended on. -/
  name : Option String
  kind : Value
  /-- The key of the manifest, where it differs from the name. -/
  rename : Field String

/-- A build target of a package. -/
structure TargetEntry where
  /-- The name, unless it is null. -/
  name : Option Value
  kinds : Field (List Value)

/-- A package. -/
structure PackageEntry where
  rawId : Option Value
  name : Option Value
  version : Option Value
  manifestPath : Field String
  /-- The source, unless it counts as false. -/
  source : Option Value
  dependencies : Field (List (Option Declaration))
  targets : Field (List (Option TargetEntry))
  metadata : Except TableFault Metadata

/-- A resolved dependency of a node; the kind of an entry that is no table is `none`. -/
structure DependencyEntry where
  package : Value
  name : Option Value
  kinds : Field (List (Option Value))

/-- The resolved dependencies of a package. -/
structure NodeEntry where
  rawId : Value
  deps : Field (List (Option DependencyEntry))

/-- A resolver document. -/
structure ResolverDocument where
  packages : Field (List (Option PackageEntry))
  nodes : Field (Field (List (Option NodeEntry)))
  members : Field (List Value)

/-! ### Reading -/

namespace Declaration

def ofFields (fields : Fields) : Declaration where
  name := match Mapping.get? fields "name" with
    | some (.text s) => some s
    | _ => none
  kind := (Mapping.get? fields "kind").getD .null
  rename := .ofOption Field.truthyText (Mapping.get? fields "rename")

end Declaration

namespace TargetEntry

def ofFields (fields : Fields) : TargetEntry where
  name := (Mapping.get? fields "name").filter (· ≠ .null)
  kinds := .ofOption Field.elements (Mapping.get? fields "kind")

end TargetEntry

namespace PackageEntry

def ofFields (fields : Fields) : PackageEntry where
  rawId := Mapping.get? fields "id"
  name := Mapping.get? fields "name"
  version := Mapping.get? fields "version"
  manifestPath := .ofOption Field.text (Mapping.get? fields "manifest_path")
  source := (Mapping.get? fields "source").filter (·.isTruthy)
  dependencies :=
    .ofOption (Field.entries Declaration.ofFields) (Mapping.get? fields "dependencies")
  targets := .ofOption (Field.entries TargetEntry.ofFields) (Mapping.get? fields "targets")
  metadata :=
    match (Mapping.get? fields "metadata").filter (·.isTruthy) with
    | some v => Metadata.ofValue v
    | none => .ok .empty

end PackageEntry

namespace DependencyEntry

/-- The kinds of an entry: left out when the value is not true, else the kind of each element. -/
def kindsOf (v : Value) : Field (List (Option Value)) :=
  if v.isTruthy then
    Field.entries (fun fields => (Mapping.get? fields "kind").getD .null) v
  else .absent

def ofFields (fields : Fields) : DependencyEntry where
  package := (Mapping.get? fields "pkg").getD (.text "")
  name := Mapping.get? fields "name"
  kinds := .ofOption kindsOf (Mapping.get? fields "dep_kinds")

end DependencyEntry

namespace NodeEntry

def ofFields (fields : Fields) : NodeEntry where
  rawId := (Mapping.get? fields "id").getD (.text "")
  deps := .ofOption (Field.entries DependencyEntry.ofFields) (Mapping.get? fields "deps")

end NodeEntry

namespace ResolverDocument

/-- The nodes of the `resolve` section; the section counts as left out when it is not true. -/
def nodesOf (v : Value) : Field (Field (List (Option NodeEntry))) :=
  if v.isTruthy then
    match v with
    | .table fields =>
      .given (.ofOption (Field.entries NodeEntry.ofFields) (Mapping.get? fields "nodes"))
    | _ => .malformed
  else .absent

/-- The document that a value is; only a table is one. -/
def ofValue? : Value → Option ResolverDocument
  | .table fields => some {
      packages := .ofOption (Field.entries PackageEntry.ofFields) (Mapping.get? fields "packages")
      nodes := .ofOption nodesOf (Mapping.get? fields "resolve")
      members := .ofOption Field.elements (Mapping.get? fields "workspace_members") }
  | _ => none

end ResolverDocument

end UnusedDeps
