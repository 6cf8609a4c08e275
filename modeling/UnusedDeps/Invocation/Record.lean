import UnusedDeps.Package.Id
import UnusedDeps.Problem.Basic

/-!
# Invocation records

A record keeps of one compiled unit what is needed to find the artifact that the
compiler wrote for it. Records pass between processes as JSON tables, so a
record can be written as a value and read back. The crate name and the crate
type of a unit that was announced with other values than texts are those values.
-/

namespace UnusedDeps

/-- What is kept of a compiled unit. -/
structure InvocationRecord where
  package : PackageId
  /-- Whether the unit is a build script. -/
  customBuild : Value
  crateName : Value
  crateType : Value
  extraFilename : String
  /-- Whether the unit was compiled with its lints silenced. -/
  capLintsAllow : Bool
  outDir : Path
  /-- The aliases passed to the compiler with their files; the file is empty when none is named. -/
  externs : List (String × String)
  deriving DecidableEq

namespace InvocationRecord

/-! ### The artifact -/

/-- The directory below the output directory that holds the artifacts. -/
def artifactDirectory : String := "save-analysis"

def isLibraryType (crateType : String) : Bool :=
  "lib".toList.isSuffixOf crateType.toList || crateType = "proc-macro"

def artifactName (r : InvocationRecord) (crateType : String) : String :=
  (if isLibraryType crateType then "lib" else "") ++ r.crateName.plainText ++ r.extraFilename
    ++ ".json"

/-- The path of the artifact; only a crate type that is a text tells. -/
def artifactPath (r : InvocationRecord) : Except Fault Path :=
  match r.crateType with
  | .text crateType =>
    .ok ((r.outDir.child artifactDirectory).child (r.artifactName crateType))
  | _ => .error .wrongType

/-! ### Records as values -/

def toValue (r : InvocationRecord) : Value :=
  .table [
    ("package_id", .table [
      ("name", r.package.name),
      ("version", r.package.version),
      ("source", r.package.source)]),
    ("custom_build", r.customBuild),
    ("crate_name", r.crateName),
    ("crate_type", r.crateType),
    ("extra_filename", .text r.extraFilename),
    ("cap_lints_allow", .bool r.capLintsAllow),
    ("out_dir", .text r.outDir.text),
    ("externs", .list (r.externs.map fun e => .list [.text e.1, .text e.2]))]

/-- A field of a value that must be a table. -/
def field (v : Value) (name : String) : Except Complaint Value :=
  match v with
  | .table fields =>
    match Mapping.get? fields name with
    | some x => .ok x
    | none => .error (.missingKey name)
  | _ => .error .wrongType

def textOf : Value → Except Complaint String
  | .text s => .ok s
  | _ => .error .wrongType

/-- The identity that a table gives. -/
def packageOf (v : Value) : Except Complaint PackageId := do
  let name ← field v "name"
  let version ← field v "version"
  let source ← field v "source"
  return ⟨name, version, source⟩

/-- How a reader of records shows values, and what it makes of a complaint. -/
structure Decoder (ε : Type) where
  refuse : Complaint → ε
  shown : Value → Except ε String

section Decoding

variable {ε : Type} (d : Decoder ε)

/-- An alias and its file, read from a value with two elements. -/
def externOf (v : Value) : Except ε (String × String) :=
  match v.elements? with
  | none => .error (d.refuse .wrongType)
  | some [a, b] => do return (← d.shown a, ← d.shown b)
  | some _ => .error (d.refuse .badValue)

/-- The aliases and files that a value gives. -/
def externsOf (v : Value) : Except ε (List (String × String)) :=
  match v.elements? with
  | none => .error (d.refuse .wrongType)
  | some items => items.mapM (externOf d)

/-- The record that a value gives, or what is wrong with it. -/
def decode (v : Value) : Except ε InvocationRecord := do
  let field (name : String) := (field v name).mapError d.refuse
  let package ← (packageOf (← field "package_id")).mapError d.refuse
  let customBuild := .bool (← field "custom_build").isTruthy
  let crateName := .text (← d.shown (← field "crate_name"))
  let crateType := .text (← d.shown (← field "crate_type"))
  let extraFilename ← d.shown (← field "extra_filename")
  let capLintsAllow := (← field "cap_lints_allow").isTruthy
  let outDir := Path.ofText (← (textOf (← field "out_dir")).mapError d.refuse)
  let externs ← externsOf d (← field "externs")
  return {
    package, customBuild, crateName, crateType, extraFilename, capLintsAllow, outDir, externs }

end Decoding

/-- The reader that shows values of any depth. -/
def unlimited : Decoder Problem where
  refuse := .malformedRecord
  shown v :=
    match v.shown? with
    | some s => .ok s
    | none => .error (.malformedRecord .badValue)

/-- The reader that has room for so many levels of a value. A deeper one ends the run. -/
def within (room : Nat) : Decoder Fault where
  refuse c := .problem (.malformedRecord c)
  shown v := (v.shownWithin room).mapError fun
    | .hugeInteger => .problem (.malformedRecord .badValue)
    | .tooDeep => .tooDeep

/-- The record that a value gives where there is room for all of it. -/
def ofValue (v : Value) : Except Problem InvocationRecord := decode unlimited v

/-- The record that a value gives where there is room for so many levels of it. -/
def ofValueWithin (room : Nat) (v : Value) : Except Fault InvocationRecord := decode (within room) v

end InvocationRecord

end UnusedDeps
