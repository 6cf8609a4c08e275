import UnusedDeps.Invocation.Arguments
import UnusedDeps.Logged

/-!
# The recorder

The recorder is told of each unit before it is compiled. It keeps a record of
every unit of a local package and decides what the compiler is given beside the
unit's own arguments. Its records are taken out all at once.
-/

namespace UnusedDeps

/-- A compiler invocation that is about to run. -/
structure CompileUnit where
  package : PackageId
  /-- The compiler arguments, without the executable. -/
  args : List Value
  /-- Whether the unit is a build script. -/
  customBuild : Value
  /-- Whether the unit belongs to the project's own files. -/
  isLocal : Value
  deriving DecidableEq, Repr

/-- The unit of a package, local when the package is. -/
def CompileUnit.ofPackage (package : PackageId) (args : List Value) (customBuild : Value) :
    Except Fault CompileUnit := do
  return ⟨package, args, customBuild, .bool (← orWrongType package.isLocal?)⟩

/-- What a unit is compiled with beside its own arguments. -/
structure Decision where
  extraArgs : List String
  env : Mapping String String
  deriving DecidableEq, Repr

/-- The argument list of a unit with what was decided. -/
def Decision.apply (d : Decision) (args : List Value) : List Value :=
  args ++ d.extraArgs.map .text

/-- The state of a recorder. -/
structure Recorder where
  /-- The executable exported to each unit as `CARGO`. -/
  cargoExe : Option String
  /-- The records that wait to be taken, in order of arrival. -/
  pending : List InvocationRecord
  deriving DecidableEq

namespace Recorder

def fresh (cargoExe : Option String) : Recorder := ⟨cargoExe, []⟩

/-- The arguments that make the compiler write an artifact. -/
def artifactArgs : List String := ["-Z", "save-analysis"]

def configVariable : String := "RUST_SAVE_ANALYSIS_CONFIG"

def config : Value :=
  .table [
    ("reachable_only", .bool true),
    ("full_docs", .bool false),
    ("pub_only", .bool false),
    ("distro_crate", .bool false),
    ("signatures", .bool false),
    ("borrow_data", .bool false)]

def logger : String := "udeps.ingestion.recorder"

/-- What a unit is compiled with. -/
def decision (r : Recorder) (isLocal : Bool) : Decision :=
  let env := (r.cargoExe.map fun exe => ("CARGO", exe)).toList
  if isLocal then ⟨artifactArgs, env ++ [(configVariable, Json.print .ascii config)]⟩
  else ⟨[], env⟩

def append (r : Recorder) (record : InvocationRecord) : Recorder :=
  { r with pending := r.pending ++ [record] }

def drain (r : Recorder) : List InvocationRecord × Recorder := (r.pending, { r with pending := [] })

theorem drain_append (r : Recorder) (record : InvocationRecord) :
    (r.append record).drain = (r.drain.1 ++ [record], r.drain.2) := rfl

theorem pending_drain (r : Recorder) : r.drain.2.pending = [] := rfl

/-- Whether the units of a package must be compiled in every run. -/
def forcesRebuild (package : PackageId) : Except Fault Bool := orWrongType package.isLocal?

/-- The warning about a unit whose lints do not fit the place of its package. -/
def mismatchText (record : InvocationRecord) (u : CompileUnit) : String :=
  "(!cap_lints_allow)=" ++ (Value.bool !record.capLintsAllow).plainText
    ++ " differs from is_path=" ++ u.isLocal.plainText ++ " for id=" ++ u.package.text

/-- The decision on a unit and the recorder after it; a unit whose arguments give no record is a
fault and changes nothing. -/
def observe (r : Recorder) (u : CompileUnit) : Logged (Decision × Recorder) := do
  let record ← .ofExcept (InvocationRecord.ofArguments u.package u.args u.customBuild)
  if !(Value.bool !record.capLintsAllow).sameKey u.isLocal then
    .log .warning logger (mismatchText record u)
  let isLocal := u.isLocal.isTruthy
  return (r.decision isLocal, if isLocal then r.append record else r)

def observeAll (r : Recorder) : List CompileUnit → Logged Recorder
  | [] => .answer r
  | u :: rest => do
    let (_, r) ← r.observe u
    r.observeAll rest

end Recorder

end UnusedDeps
