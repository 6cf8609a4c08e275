import UnusedDeps.Invocation.Recorder

/-!
# Workers that share a recorder

Several workers tell one recorder of units, hand it records and take its records
out. A call of a worker is carried out in steps, and between any two steps of one
worker the others may make any number of theirs. A unit is told of in up to three
steps: its arguments are read without a look at the recorder, the record of a local
unit is kept, and the executable of the recorder is read for the decision. Keeping
a record is one step, and so is taking all of them.
-/

namespace UnusedDeps

/-- What a worker asks of the recorder. -/
inductive RecorderCall where
  | observe (u : CompileUnit)
  | append (record : InvocationRecord)
  | drain

/-- What is left to do of a call. -/
inductive RecorderTask where
  /-- A call that has not begun. -/
  | call (c : RecorderCall)
  /-- The record of a local unit is kept next. -/
  | keep (u : CompileUnit) (record : InvocationRecord)
  /-- The decision on a unit is made next. -/
  | decide (u : CompileUnit)

/-- What a worker saw of one of its steps. -/
inductive RecorderEvent where
  | announced (outcome : Logged InvocationRecord)
  | appended (record : InvocationRecord)
  | decided (d : Decision)
  | drained (records : List InvocationRecord)

/-- The record that the arguments of a unit give, with the warning about its lints. -/
def CompileUnit.announce (u : CompileUnit) : Logged InvocationRecord := do
  let record ← .ofExcept (InvocationRecord.ofArguments u.package u.args u.customBuild)
  if !(Value.bool !record.capLintsAllow).sameKey u.isLocal then
    .log .warning Recorder.logger (Recorder.mismatchText record u)
  return record

/-- What is left to do of the telling of a unit once its arguments are read. -/
def CompileUnit.afterAnnounce (u : CompileUnit) :
    Except Fault InvocationRecord → Option RecorderTask
  | .ok record => some (if u.isLocal.isTruthy then .keep u record else .decide u)
  | .error _ => none

/-- One step of a task: the recorder after it, what the worker sees and what is left to do. -/
def RecorderTask.step (r : Recorder) :
    RecorderTask → Recorder × RecorderEvent × Option RecorderTask
  | .call (.observe u) => (r, .announced u.announce, u.afterAnnounce u.announce.result)
  | .call (.append record) => (r.append record, .appended record, none)
  | .call .drain => (r.drain.2, .drained r.drain.1, none)
  | .keep u record => (r.append record, .appended record, some (.decide u))
  | .decide u => (r, .decided (r.decision u.isLocal.isTruthy), none)

/-- A recorder, what each of `n` workers has left to do, and what they saw so far, in order. -/
structure Workers (n : Nat) where
  recorder : Recorder
  tasks : Fin n → List RecorderTask
  history : List (Fin n × RecorderEvent)

namespace Workers

variable {n : Nat}

/-- The workers before their first steps. -/
def start (cargoExe : Option String) (programs : Fin n → List RecorderCall) : Workers n :=
  ⟨.fresh cargoExe, fun i => (programs i).map .call, []⟩

/-- The next step of a worker; nothing happens when it has nothing left to do. -/
def step (w : Workers n) (i : Fin n) : Workers n :=
  match w.tasks i with
  | [] => w
  | t :: rest =>
    let (r, event, next) := t.step w.recorder
    { recorder := r
      tasks := fun j => if j = i then next.toList ++ rest else w.tasks j
      history := w.history ++ [(i, event)] }

/-- The steps of the workers in the order of a schedule. -/
def run (w : Workers n) (schedule : List (Fin n)) : Workers n := schedule.foldl step w

end Workers

end UnusedDeps
