import UnusedDeps.Invocation.Log
import UnusedDeps.Proofs.Steps

/-!
# What a recorder keeps

A recorder keeps the record of a local unit and nothing of any other, whatever it
was told before. After several units it keeps their records in the order in which
it was told of them. Main statements: `result_observe` and `result_replay`.
-/

namespace UnusedDeps

namespace CompileUnit

/-- Whether the arguments of a unit give a record. -/
def IsParsed (u : CompileUnit) : Prop :=
  ∃ record, InvocationRecord.ofArguments u.package u.args u.customBuild = .ok record

/-- The record that is kept of a unit: none unless the unit is local. -/
def kept? (u : CompileUnit) : Option InvocationRecord :=
  if u.isLocal.isTruthy then
    (InvocationRecord.ofArguments u.package u.args u.customBuild).toOption
  else none

/-- A recorder decides only on a unit whose arguments give a record. -/
theorem isParsed_of_observe {recorder : Recorder} {u : CompileUnit} {a : Decision × Recorder}
    (h : (recorder.observe u).result = .ok a) : u.IsParsed := by
  obtain ⟨r, hr, -⟩ := (Logged.result_bind_eq_ok ..).1 h
  exact ⟨r, hr⟩

theorem eq_of_kept? {u : CompileUnit} {record r : InvocationRecord}
    (parsed : InvocationRecord.ofArguments u.package u.args u.customBuild = .ok record)
    (h : u.kept? = some r) : record = r := by
  rw [kept?, parsed] at h
  split at h
  · exact Option.some.inj h
  · cases h

end CompileUnit

namespace Recorder

/-- The recorder with more records that wait to be taken. -/
def appendAll (r : Recorder) (records : List InvocationRecord) : Recorder :=
  { r with pending := r.pending ++ records }

theorem appendAll_nil (r : Recorder) : r.appendAll [] = r := by
  rw [appendAll, List.append_nil]

theorem appendAll_append (r : Recorder) (as bs : List InvocationRecord) :
    (r.appendAll as).appendAll bs = r.appendAll (as ++ bs) := by
  rw [appendAll, appendAll, appendAll, List.append_assoc]

/-- A recorder decides on a unit whose arguments give a record, and keeps that of a local one. -/
theorem result_observe (r : Recorder) {u : CompileUnit} (h : u.IsParsed) :
    (r.observe u).result = .ok (r.decision u.isLocal.isTruthy, r.appendAll u.kept?.toList) := by
  obtain ⟨record, hr⟩ := h
  have after : (if u.isLocal.isTruthy then r.append record else r) =
      r.appendAll u.kept?.toList := by
    rw [CompileUnit.kept?, hr]
    cases u.isLocal.isTruthy with
    | false => exact (appendAll_nil r).symm
    | true => rfl
  unfold observe
  rw [Logged.result_bind_eq_ok]
  refine ⟨record, hr, ?_⟩
  rw [← after]
  split
  · rfl
  · rfl

theorem result_observeAll (r : Recorder) {us : List CompileUnit} (h : ∀ u ∈ us, u.IsParsed) :
    (r.observeAll us).result = .ok (r.appendAll (us.filterMap CompileUnit.kept?)) := by
  induction us generalizing r with
  | nil => exact congrArg Except.ok (appendAll_nil r).symm
  | cons u us ih =>
    rw [List.forall_mem_cons] at h
    have rest := ih (r.appendAll u.kept?.toList) h.2
    rw [appendAll_append] at rest
    rw [observeAll, Logged.result_bind_eq_ok]
    refine ⟨_, result_observe r h.1, ?_⟩
    rw [rest, List.filterMap_cons]
    cases u.kept? with
    | none => rfl
    | some record => rfl

/-- Replayed units leave the records of the local ones, in their order. -/
theorem result_replay (r : Recorder) {us : List CompileUnit} (h : ∀ u ∈ us, u.IsParsed)
    {jobs : Value} (some : isTooFew jobs = .ok false) :
    (r.replay us jobs).result =
      .ok (r.pending ++ us.filterMap CompileUnit.kept?, { r with pending := [] }) := by
  unfold replay
  rw [Logged.result_bind_eq_ok]
  refine ⟨false, some, ?_⟩
  show (r.observeAll us >>= fun r => pure r.drain).result = _
  rw [Logged.result_bind_eq_ok]
  exact ⟨_, result_observeAll r h, rfl⟩

end Recorder

end UnusedDeps
