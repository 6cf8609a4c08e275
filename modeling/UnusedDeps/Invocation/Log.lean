import UnusedDeps.Graph.File
import UnusedDeps.Invocation.Recorder

/-!
# Invocation logs

A log holds one compiler invocation on each line as a JSON table; blank lines
are skipped and counted. The first line that holds none is a problem that tells
its number. The invocations of a log can be replayed on a recorder.
-/

namespace UnusedDeps

namespace CompileUnit

/-- The problem that a line of a log is. -/
def atLine {α : Type} (path : Path) (line : Nat) (e : Except Complaint α) : Except Fault α :=
  e.mapError fun c => .problem (.malformedLog path line c)

def textsOf (v : Value) : Except Complaint (List Value) :=
  match v.elements? with
  | none => .error .wrongType
  | some items => .ok (items.map fun item => .text item.plainText)

/-- Whether a field that may be left out counts as true. -/
def truthOr (default : Bool) (v : Value) (name : String) : Value :=
  .bool ((v.field? name).map Value.isTruthy |>.getD default)

/-- The unit that the value of a line gives. A source that is no text is found out only when the
unit is placed, which ends the run. -/
def ofValue (path : Path) (line : Nat) (v : Value) : Except Fault CompileUnit := do
  let package ← atLine path line
    (do InvocationRecord.packageOf (← InvocationRecord.field v "package_id"))
  let args ← atLine path line (do textsOf (← InvocationRecord.field v "args"))
  let isLocal ← orWrongType package.isLocal?
  return {
    package := package
    args := args
    customBuild := truthOr false v "custom_build"
    isLocal := truthOr isLocal v "is_local" }

/-- The unit that a line of a log holds. -/
def ofLine (path : Path) (line : Nat) (s : String) : Except Fault CompileUnit := do
  ofValue path line (← valueOfJson s (.problem (.malformedLog path line .notJson)))

def ofLines (path : Path) : Nat → List String → Except Fault (List CompileUnit)
  | _, [] => .ok []
  | line, s :: rest =>
    if (Text.strip s).isEmpty then ofLines path (line + 1) rest
    else do
      let u ← ofLine path line s
      return u :: (← ofLines path (line + 1) rest)

def ofLog (files : FileTree) (path : Path) : Except Fault (List CompileUnit) := do
  let s ← files.readOr path (.unreadableLog path)
  ofLines path 1 (Text.lines s)

end CompileUnit

/-- A number of workers that is too small: none can work. -/
def isTooFew (jobs : Value) : Except Fault Bool :=
  match jobs.key? with
  | some .null => .ok false
  | some (.number n) => .ok (n ≤ 0)
  | some (.fraction x) => .ok (Key.compare? (.fraction x) (.number 0) = some .lt)
  | _ => .error .wrongType

/-- The records of units that are replayed on a recorder by at most `jobs` workers at a time, or by
any number of them when `jobs` is null. -/
def Recorder.replay (r : Recorder) (units : List CompileUnit) (jobs : Value) :
    Logged (List InvocationRecord × Recorder) := do
  if ← .ofExcept (isTooFew jobs) then
    .fail .badValue
  let r ← r.observeAll units
  return r.drain

end UnusedDeps
