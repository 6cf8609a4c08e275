import Mathlib
import UnusedDeps.Invocation.Workers
import UnusedDeps.Proofs.Recorder

/-!
# No record is lost or kept twice

However the steps of the workers interleave, the records that were taken out and
those that still wait are the records that were kept, in the order in which they
were kept. A call keeps at most one record, and it keeps it at one step; what one
step does to the records is said once, by `accounted_step` of a task, and every
schedule follows from it. A worker that gets enough steps completes its program.
Main statements: `Workers.accounts_run` and `Workers.exists_run_completed`.
-/

namespace UnusedDeps

/-! ### Calls, tasks and events -/

/-- The record that a call is to keep. -/
def RecorderCall.record? : RecorderCall → Option InvocationRecord
  | .observe u => u.kept?
  | .append record => some record
  | .drain => none

/-- The record that a call hands over. -/
def RecorderCall.explicit? : RecorderCall → Option InvocationRecord
  | .append record => some record
  | _ => none

/-- The unit that a call tells of. -/
def RecorderCall.unit? : RecorderCall → Option CompileUnit
  | .observe u => some u
  | _ => none

namespace RecorderTask

/-- The call whose effect on the records is still to come. -/
def call? : RecorderTask → Option RecorderCall
  | .call c => some c
  | .keep u _ => some (.observe u)
  | .decide _ => none

/-- The unit that a task is about. -/
def unit? : RecorderTask → Option CompileUnit
  | .call c => c.unit?
  | .keep u _ => some u
  | .decide u => some u

/-- A record about to be kept is that of its unit. -/
def IsSound : RecorderTask → Prop
  | .keep u record => u.kept? = some record
  | _ => True

/-- The number of steps that a task takes at most. -/
def work : RecorderTask → Nat
  | .call (.observe _) => 3
  | .keep .. => 2
  | .call _ | .decide _ => 1

end RecorderTask

namespace RecorderEvent

def appended? : RecorderEvent → Option InvocationRecord
  | .appended record => some record
  | _ => none

def drained? : RecorderEvent → Option (List InvocationRecord)
  | .drained records => some records
  | _ => none

end RecorderEvent

/-! ### One step of a task -/

namespace CompileUnit

theorem result_announce (u : CompileUnit) :
    u.announce.result = InvocationRecord.ofArguments u.package u.args u.customBuild := by
  unfold announce
  rw [Logged.result_bind, Logged.result_ofExcept]
  cases InvocationRecord.ofArguments u.package u.args u.customBuild with
  | error => rfl
  | ok record =>
    show (Logged.result (if _ then _ else _) : Except Fault InvocationRecord) = _
    split
    · rfl
    · rfl

theorem kept?_eq_none {u : CompileUnit} (h : u.isLocal.isTruthy = false ∨ ¬ u.IsParsed) :
    u.kept? = none := by
  unfold kept?
  split
  · rename_i place
    cases parsed : InvocationRecord.ofArguments u.package u.args u.customBuild with
    | error => rfl
    | ok record =>
      rcases h with elsewhere | unread
      · cases place.symm.trans elsewhere
      · exact absurd ⟨record, parsed⟩ unread
  · rfl

/-- A unit whose arguments are read is either kept next, with its record, or never. -/
theorem afterAnnounce_cases (u : CompileUnit) :
    (∃ record, u.kept? = some record ∧
      u.afterAnnounce u.announce.result = some (.keep u record)) ∨
    (u.kept? = none ∧ (u.afterAnnounce u.announce.result = some (.decide u) ∨
      u.afterAnnounce u.announce.result = none)) := by
  rw [result_announce]
  unfold kept? afterAnnounce
  cases InvocationRecord.ofArguments u.package u.args u.customBuild with
  | error =>
    refine .inr ⟨?_, .inr rfl⟩
    split
    · rfl
    · rfl
  | ok record =>
    cases u.isLocal.isTruthy with
    | true => exact .inl ⟨record, rfl, rfl⟩
    | false => exact .inr ⟨rfl, .inl rfl⟩

end CompileUnit

namespace RecorderTask

/-- What a step of a task does to the records: what waited is taken or still waits, and the call of
the task keeps its record now, or will do so later, or keeps none. -/
structure Accounted (r : Recorder) (t : RecorderTask)
    (after : Recorder × RecorderEvent × Option RecorderTask) : Prop where
  conserved : after.2.1.drained?.toList.flatten ++ after.1.pending =
    r.pending ++ after.2.1.appended?.toList
  effect : (after.2.2.bind call? = t.call? ∧ after.2.1.appended? = none) ∨
    (after.2.2.bind call? = none ∧ after.2.1.appended? = t.call?.bind RecorderCall.record?)
  sound : ∀ next ∈ after.2.2, next.IsSound
  cargoExe : after.1.cargoExe = r.cargoExe

theorem accounted_step (r : Recorder) {t : RecorderTask} (sound : t.IsSound) :
    t.Accounted r (t.step r) := by
  cases t with
  | call c =>
    cases c with
    | observe u =>
      have pending : [] ++ r.pending = r.pending ++ [] := (List.append_nil _).symm
      -- Once the arguments are read, a record is put off to the next step or there will be none.
      rcases u.afterAnnounce_cases with ⟨record, kept, next⟩ | ⟨kept, next | next⟩
      · refine ⟨pending, .inl ⟨?_, rfl⟩, ?_, rfl⟩
        · rw [step, next]
          rfl
        · rw [step, next]
          rintro _ ⟨rfl⟩
          exact kept
      · refine ⟨pending, .inr ⟨?_, kept.symm⟩, ?_, rfl⟩
        · rw [step, next]
          rfl
        · rw [step, next]
          rintro _ ⟨rfl⟩
          trivial
      · refine ⟨pending, .inr ⟨?_, kept.symm⟩, ?_, rfl⟩
        · rw [step, next]
          rfl
        · rw [step, next]
          rintro _ ⟨⟩
    | append record => exact ⟨rfl, .inr ⟨rfl, rfl⟩, fun _ h => (nomatch h), rfl⟩
    | drain =>
      refine ⟨?_, .inr ⟨rfl, rfl⟩, fun _ h => (nomatch h), rfl⟩
      show [r.pending].flatten ++ [] = r.pending ++ []
      rw [List.flatten_singleton]
  | keep u record =>
    refine ⟨rfl, .inr ⟨rfl, sound.symm⟩, ?_, rfl⟩
    rintro _ ⟨rfl⟩
    trivial
  | decide u =>
    exact ⟨(List.append_nil _).symm, .inr ⟨rfl, rfl⟩, fun _ h => (nomatch h), rfl⟩

/-- A step leaves less to do than there was. -/
theorem work_step_lt (r : Recorder) (t : RecorderTask) :
    ((t.step r).2.2.toList.map work).sum < t.work := by
  cases t with
  | call c =>
    cases c with
    | observe u =>
      rcases u.afterAnnounce_cases with ⟨record, -, next⟩ | ⟨-, next | next⟩ <;>
        simp [step, next, work]
    | append => simp [step, work]
    | drain => simp [step, work]
  | keep => simp [step, work]
  | decide => simp [step, work]

/-- A unit of which no record is kept leaves the recorder as it is. -/
theorem step_of_kept?_eq_none (r : Recorder) {t : RecorderTask} (sound : t.IsSound)
    {u : CompileUnit} (about : t.unit? = some u) (kept : u.kept? = none) :
    (t.step r).1 = r ∧ (t.step r).2.1.appended? = none := by
  cases t with
  | call c =>
    cases c with
    | observe => exact ⟨rfl, rfl⟩
    | append => cases about
    | drain => cases about
  | keep v record =>
    cases about
    rw [IsSound, kept] at sound
    cases sound
  | decide => exact ⟨rfl, rfl⟩

end RecorderTask

/-! ### Lists of found values -/

section

variable {α β ι : Type}

theorem filterMap_cons_eq (f : α → Option β) (a : α) (l : List α) :
    (a :: l).filterMap f = (f a).toList ++ l.filterMap f := by
  rw [List.filterMap_cons]
  cases f a with
  | none => rfl
  | some => rfl

theorem filterMap_singleton (f : α → Option β) (a : α) : [a].filterMap f = (f a).toList := by
  rw [filterMap_cons_eq, List.filterMap_nil, List.append_nil]

theorem flatMap_ite_eq [DecidableEq ι] {xs : List ι} (distinct : xs.Nodup) {i : ι} (h : i ∈ xs)
    (l : List α) : (xs.flatMap fun j => if i = j then l else []) = l := by
  induction xs with
  | nil => cases h
  | cons j xs ih =>
    obtain ⟨apart, distinct⟩ := List.nodup_cons.1 distinct
    rw [List.flatMap_cons]
    rcases List.mem_cons.1 h with rfl | inRest
    · have rest : (xs.flatMap fun j => if i = j then l else []) = [] := by
        refine List.flatMap_eq_nil_iff.2 fun k hk => if_neg ?_
        rintro rfl
        exact apart hk
      rw [if_pos rfl, rest, List.append_nil]
    · have other : i ≠ j := fun same => apart (same ▸ inRest)
      rw [if_neg other, List.nil_append, ih distinct inRest]

end

/-! ### What the workers did so far -/

namespace Workers

variable {n : Nat}

/-- The lists that were taken out, in order. -/
def drains (w : Workers n) : List (List InvocationRecord) :=
  w.history.filterMap fun e => e.2.drained?

/-- The records that were kept, in order. -/
def appended (w : Workers n) : List InvocationRecord := w.history.filterMap fun e => e.2.appended?

/-- The records that one worker had kept, in order. -/
def appendedBy (w : Workers n) (i : Fin n) : List InvocationRecord :=
  w.history.filterMap fun e => if e.1 = i then e.2.appended? else none

/-- The calls of a worker whose effect on the records is still to come. -/
def remaining (w : Workers n) (i : Fin n) : List RecorderCall :=
  (w.tasks i).filterMap RecorderTask.call?

/-! ### A step of a worker that has something left to do -/

section

variable {w : Workers n} {i : Fin n} {t : RecorderTask} {rest : List RecorderTask}

theorem recorder_step (h : w.tasks i = t :: rest) :
    (w.step i).recorder = (t.step w.recorder).1 := by
  rw [step, h]

theorem tasks_step (h : w.tasks i = t :: rest) (j : Fin n) :
    (w.step i).tasks j =
      if j = i then (t.step w.recorder).2.2.toList ++ rest else w.tasks j := by
  rw [step, h]

theorem history_step (h : w.tasks i = t :: rest) :
    (w.step i).history = w.history ++ [(i, (t.step w.recorder).2.1)] := by
  rw [step, h]

/-- What a worker sees at a step comes after everything that was seen before. -/
theorem filterMap_history_step {α : Type} (h : w.tasks i = t :: rest)
    (f : Fin n × RecorderEvent → Option α) :
    (w.step i).history.filterMap f =
      w.history.filterMap f ++ (f (i, (t.step w.recorder).2.1)).toList := by
  rw [history_step h, List.filterMap_append, filterMap_singleton]

theorem remaining_of_tasks (h : w.tasks i = t :: rest) :
    w.remaining i = t.call?.toList ++ rest.filterMap RecorderTask.call? := by
  rw [remaining, h, filterMap_cons_eq]

/-- The calls still to take effect, of the worker that made the step and of the others. -/
theorem remaining_step (h : w.tasks i = t :: rest) (j : Fin n) :
    (w.step i).remaining j =
      if j = i then ((t.step w.recorder).2.2.bind RecorderTask.call?).toList
        ++ rest.filterMap RecorderTask.call?
      else w.remaining j := by
  unfold remaining
  rw [tasks_step h]
  split
  · rw [List.filterMap_append]
    cases (t.step w.recorder).2.2 with
    | none => rfl
    | some next => exact congrArg (· ++ _) (filterMap_singleton _ next)
  · rfl

end

theorem step_of_tasks_eq_nil {w : Workers n} {i : Fin n} (h : w.tasks i = []) : w.step i = w := by
  rw [step, h]

/-! ### What every step keeps -/

/-- The records and the programs of the workers agree with what is left to do. -/
structure Accounted (cargoExe : Option String) (programs : Fin n → List RecorderCall)
    (w : Workers n) : Prop where
  conserved : w.drains.flatten ++ w.recorder.pending = w.appended
  ordered : ∀ i, ∃ done, programs i = done ++ w.remaining i ∧
    w.appendedBy i = done.filterMap RecorderCall.record?
  sound : ∀ i, ∀ t ∈ w.tasks i, t.IsSound
  cargoExe : w.recorder.cargoExe = cargoExe

theorem accounted_start (cargoExe : Option String) (programs : Fin n → List RecorderCall) :
    (start cargoExe programs).Accounted cargoExe programs where
  conserved := rfl
  ordered i := by
    have all : (start cargoExe programs).remaining i = programs i := by
      show ((programs i).map .call).filterMap RecorderTask.call? = programs i
      rw [List.filterMap_map]
      exact List.filterMap_some
    exact ⟨[], all.symm, rfl⟩
  sound i t h := by
    obtain ⟨c, -, rfl⟩ := List.mem_map.1 h
    trivial
  cargoExe := rfl

section

variable {cargoExe : Option String} {programs : Fin n → List RecorderCall} {w : Workers n}

theorem conserved_step (h : w.Accounted cargoExe programs) (i : Fin n) :
    (w.step i).drains.flatten ++ (w.step i).recorder.pending = (w.step i).appended := by
  cases ht : w.tasks i with
  | nil =>
    rw [step_of_tasks_eq_nil ht]
    exact h.conserved
  | cons t rest =>
    have spec := RecorderTask.accounted_step w.recorder (h.sound i t (ht ▸ List.mem_cons_self))
    have drains : (w.step i).drains = _ := filterMap_history_step ht _
    have appended : (w.step i).appended = _ := filterMap_history_step ht _
    rw [drains, appended, recorder_step ht, List.flatten_append, List.append_assoc, spec.conserved,
      ← List.append_assoc]
    exact congrArg (· ++ _) h.conserved

theorem ordered_step (h : w.Accounted cargoExe programs) (i j : Fin n) :
    ∃ done, programs j = done ++ (w.step i).remaining j ∧
      (w.step i).appendedBy j = done.filterMap RecorderCall.record? := by
  obtain ⟨done, program, records⟩ := h.ordered j
  cases ht : w.tasks i with
  | nil =>
    rw [step_of_tasks_eq_nil ht]
    exact ⟨done, program, records⟩
  | cons t rest =>
    have spec := RecorderTask.accounted_step w.recorder (h.sound i t (ht ▸ List.mem_cons_self))
    have appendedBy : (w.step i).appendedBy j = _ := filterMap_history_step ht _
    rw [remaining_step ht, appendedBy]
    by_cases same : i = j
    · subst same
      rw [remaining_of_tasks ht] at program
      rw [if_pos rfl, if_pos rfl]
      rcases spec.effect with ⟨later, none⟩ | ⟨now, kept⟩
      · refine ⟨done, ?_, ?_⟩
        · rw [later, program]
        · rw [none, Option.toList_none, List.append_nil]
          exact records
      · -- The call of the task counts as done from this step on.
        refine ⟨done ++ t.call?.toList, ?_, ?_⟩
        · rw [now, program, List.append_assoc]
          rfl
        · rw [kept, List.filterMap_append, ← records]
          cases t.call? with
          | none => rfl
          | some c => exact congrArg _ (filterMap_singleton RecorderCall.record? c).symm
    · rw [if_neg (Ne.symm same), if_neg same, Option.toList_none, List.append_nil]
      exact ⟨done, program, records⟩

theorem sound_step (h : w.Accounted cargoExe programs) (i j : Fin n) :
    ∀ t ∈ (w.step i).tasks j, t.IsSound := by
  cases ht : w.tasks i with
  | nil =>
    rw [step_of_tasks_eq_nil ht]
    exact h.sound j
  | cons t rest =>
    have spec := RecorderTask.accounted_step w.recorder (h.sound i t (ht ▸ List.mem_cons_self))
    rw [tasks_step ht]
    split
    · intro s hs
      rcases List.mem_append.1 hs with hs | hs
      · exact spec.sound s (Option.mem_toList.1 hs)
      · exact h.sound i s (ht ▸ List.mem_cons_of_mem t hs)
    · exact h.sound j

theorem cargoExe_step (h : w.Accounted cargoExe programs) (i : Fin n) :
    (w.step i).recorder.cargoExe = cargoExe := by
  cases ht : w.tasks i with
  | nil =>
    rw [step_of_tasks_eq_nil ht]
    exact h.cargoExe
  | cons t rest =>
    have spec := RecorderTask.accounted_step w.recorder (h.sound i t (ht ▸ List.mem_cons_self))
    rw [recorder_step ht]
    exact spec.cargoExe.trans h.cargoExe

theorem accounted_step (h : w.Accounted cargoExe programs) (i : Fin n) :
    (w.step i).Accounted cargoExe programs :=
  ⟨conserved_step h i, ordered_step h i, sound_step h i, cargoExe_step h i⟩

theorem accounted_run (h : w.Accounted cargoExe programs) (schedule : List (Fin n)) :
    (w.run schedule).Accounted cargoExe programs := by
  induction schedule generalizing w with
  | nil => exact h
  | cons i schedule ih => exact ih (accounted_step h i)

/-- A step for a unit of which no record is kept changes nothing. -/
theorem step_of_kept?_eq_none (h : w.Accounted cargoExe programs) {i : Fin n} {t : RecorderTask}
    {rest : List RecorderTask} (ht : w.tasks i = t :: rest) {u : CompileUnit}
    (about : t.unit? = some u) (kept : u.kept? = none) :
    (w.step i).recorder = w.recorder ∧ (w.step i).appended = w.appended := by
  have sound : t.IsSound := h.sound i t (ht ▸ List.mem_cons_self)
  obtain ⟨same, none⟩ := RecorderTask.step_of_kept?_eq_none w.recorder sound about kept
  have appended : (w.step i).appended = _ := filterMap_history_step ht _
  constructor
  · rw [recorder_step ht]
    exact same
  · rw [appended, none, Option.toList_none, List.append_nil]
    rfl

end

/-! ### The records of all workers -/

/-- The records kept by all workers are those of each one, put together. -/
theorem perm_appendedBy (w : Workers n) :
    w.appended.Perm ((List.finRange n).flatMap w.appendedBy) := by
  unfold appended appendedBy
  induction w.history with
  | nil =>
    rw [List.filterMap_nil]
    simp
  | cons e history ih =>
    have one : (List.finRange n).flatMap (fun i => if e.1 = i then e.2.appended?.toList else []) =
        e.2.appended?.toList :=
      flatMap_ite_eq (List.nodup_finRange n) (List.mem_finRange e.1) _
    have split : ∀ i, (e :: history).filterMap
        (fun e => if e.1 = i then e.2.appended? else none) =
        (if e.1 = i then e.2.appended?.toList else []) ++
          history.filterMap fun e => if e.1 = i then e.2.appended? else none := by
      intro i
      rw [filterMap_cons_eq]
      split <;> rfl
    simp only [split]
    rw [filterMap_cons_eq]
    refine .trans ?_ (List.flatMap_append_perm _ _ _)
    rw [one]
    exact ih.append_left _

/-- The records of several calls are those that were handed over and those of the units. -/
theorem perm_record? (calls : List RecorderCall) :
    (calls.filterMap RecorderCall.record?).Perm
      (calls.filterMap RecorderCall.explicit? ++
        (calls.filterMap RecorderCall.unit?).filterMap CompileUnit.kept?) := by
  induction calls with
  | nil => exact .nil
  | cons c calls ih =>
    cases c with
    | observe u =>
      show ((RecorderCall.observe u :: calls).filterMap _).Perm
        (calls.filterMap _ ++ (u :: calls.filterMap _).filterMap _)
      rw [filterMap_cons_eq, filterMap_cons_eq]
      exact (ih.append_left _).trans (List.perm_append_comm_assoc _ _ _)
    | append record => exact ih.cons record
    | drain => exact ih

/-- The records handed over by calls of the workers. -/
def explicitOf (done : Fin n → List RecorderCall) : List InvocationRecord :=
  (List.finRange n).flatMap fun i => (done i).filterMap RecorderCall.explicit?

/-- The units that calls of the workers told of. -/
def unitsOf (done : Fin n → List RecorderCall) : List CompileUnit :=
  (List.finRange n).flatMap fun i => (done i).filterMap RecorderCall.unit?

/-- The records of all workers are those they handed over and those of the local units they told
of. -/
theorem perm_appended {w : Workers n} {done : Fin n → List RecorderCall}
    (records : ∀ i, w.appendedBy i = (done i).filterMap RecorderCall.record?) :
    w.appended.Perm (explicitOf done ++ (unitsOf done).filterMap CompileUnit.kept?) := by
  have each : ∀ i ∈ List.finRange n, (w.appendedBy i).Perm
      ((done i).filterMap RecorderCall.explicit? ++
        ((done i).filterMap RecorderCall.unit?).filterMap CompileUnit.kept?) := by
    intro i _
    rw [records]
    exact perm_record? (done i)
  have units : (unitsOf done).filterMap CompileUnit.kept? = (List.finRange n).flatMap fun i =>
      ((done i).filterMap RecorderCall.unit?).filterMap CompileUnit.kept? :=
    List.filterMap_flatMap
  rw [units]
  refine (perm_appendedBy w).trans ((List.Perm.flatMap_left _ each).trans ?_)
  exact (List.flatMap_append_perm _ _ _).symm

/-- What holds of the workers at every point of every schedule. -/
structure Accounts (cargoExe : Option String) (programs : Fin n → List RecorderCall)
    (w : Workers n) : Prop where
  /-- What was taken out and what still waits is what was kept, in the order in which it was. -/
  conserved : w.drains.flatten ++ w.recorder.pending = w.appended
  /-- What was kept is what the calls that took effect are to keep, for each worker in the order of
  its program. -/
  effect : ∃ done : Fin n → List RecorderCall,
    (∀ i, programs i = done i ++ w.remaining i) ∧
    (∀ i, w.appendedBy i = (done i).filterMap RecorderCall.record?) ∧
    w.appended.Perm (explicitOf done ++ (unitsOf done).filterMap CompileUnit.kept?)
  /-- No step for a unit that is not local, or that gives no record, changes anything. -/
  silent : ∀ i t rest u, w.tasks i = t :: rest → t.unit? = some u →
    (u.isLocal.isTruthy = false ∨ ¬ u.IsParsed) →
    (w.step i).recorder = w.recorder ∧ (w.step i).appended = w.appended
  cargoExe : w.recorder.cargoExe = cargoExe

/-- Nothing is lost or kept twice, however the workers' steps interleave. -/
theorem accounts_run (cargoExe : Option String) (programs : Fin n → List RecorderCall)
    (schedule : List (Fin n)) :
    ((start cargoExe programs).run schedule).Accounts cargoExe programs := by
  have accounted := accounted_run (accounted_start cargoExe programs) schedule
  choose done program records using accounted.ordered
  exact {
    conserved := accounted.conserved
    effect := ⟨done, program, records, perm_appended records⟩
    silent := fun _ _ _ _ ht about dropped =>
      step_of_kept?_eq_none accounted ht about (CompileUnit.kept?_eq_none dropped)
    cargoExe := accounted.cargoExe }

def appUnit : CompileUnit where
  package := ⟨"app", "1.0.0", "path+file:///ws/app"⟩
  args := ["--crate-name", "app", "--crate-type", "lib", "-C", "extra-filename=-1", "--out-dir", "t"]
  customBuild := .bool false
  isLocal := .bool true

def appRecord : InvocationRecord := ⟨appUnit.package, .bool false, "app", "lib", "-1", false,
  Path.ofText "t", []⟩

def toolRecord : InvocationRecord := { appRecord with crateName := "tool" }

/-- One worker tells of a unit, one hands over a record and one takes out the records twice. -/
def threePrograms (i : Fin 3) : List RecorderCall :=
  if i = 0 then [.observe appUnit] else if i = 1 then [.append toolRecord] else [.drain, .drain]

/-- The record of a unit is kept while the other workers take their steps. -/
theorem accounts_run_interleaved :
    let w := (start none threePrograms).run [0, 1, 2, 0, 2, 0]
    w.Accounts none threePrograms ∧ w.drains = [[toolRecord], [appRecord]] ∧
      w.recorder.pending = [] ∧ ∀ i, w.tasks i = [] :=
  ⟨accounts_run none threePrograms [0, 1, 2, 0, 2, 0], by decide, by decide, by decide⟩

/-! ### Programs that are completed -/

/-- The number of steps that a worker needs at most. -/
def work (w : Workers n) (i : Fin n) : Nat := ((w.tasks i).map RecorderTask.work).sum

/-- A step of a worker that has something left to do counts, and only for that worker. -/
theorem work_step_le (w : Workers n) (i j : Fin n) :
    (w.step i).work j ≤ w.work j - if i = j then 1 else 0 := by
  cases ht : w.tasks i with
  | nil =>
    rw [step_of_tasks_eq_nil ht]
    split
    · rename_i same
      subst same
      simp [work, ht]
    · exact le_rfl
  | cons t rest =>
    unfold work
    rw [tasks_step ht]
    by_cases same : i = j
    · subst same
      have less := RecorderTask.work_step_lt w.recorder t
      rw [if_pos rfl, if_pos rfl, ht, List.map_append, List.sum_append, List.map_cons, List.sum_cons]
      omega
    · rw [if_neg (Ne.symm same), if_neg same]
      exact le_rfl

/-- A worker that gets enough steps has nothing left to do, whatever the others do in between. -/
theorem tasks_run_eq_nil {w : Workers n} {i : Fin n} {schedule : List (Fin n)}
    (enough : w.work i ≤ schedule.count i) : (w.run schedule).tasks i = [] := by
  induction schedule generalizing w with
  | nil =>
    rw [List.count_nil, Nat.le_zero] at enough
    show w.tasks i = []
    cases ht : w.tasks i with
    | nil => rfl
    | cons t rest =>
      have some := RecorderTask.work_step_lt w.recorder t
      rw [work, ht, List.map_cons, List.sum_cons] at enough
      omega
  | cons j schedule ih =>
    refine ih (w := w.step j) ?_
    have less := work_step_le w j i
    rw [List.count_cons] at enough
    by_cases same : j = i
    · rw [if_pos (beq_iff_eq.2 same)] at enough
      rw [if_pos same] at less
      omega
    · rw [if_neg (mt beq_iff_eq.1 same)] at enough
      rw [if_neg same] at less
      omega

theorem exists_run_tasks_eq_nil (w : Workers n) : ∃ schedule, ∀ i, (w.run schedule).tasks i = [] := by
  refine ⟨(List.finRange n).flatMap fun i => List.replicate (w.work i) i, fun i => ?_⟩
  refine tasks_run_eq_nil ?_
  have turns : (List.replicate (w.work i) i).Sublist
      ((List.finRange n).flatMap fun i => List.replicate (w.work i) i) :=
    List.sublist_flatten_of_mem (List.mem_map_of_mem (List.mem_finRange i))
  exact List.replicate_sublist_iff.1 turns

/-- Every program can be completed, and then the records are those that were handed over and those
of the units that were told of. -/
theorem exists_run_completed (cargoExe : Option String) (programs : Fin n → List RecorderCall) :
    ∃ schedule, (∀ i, ((start cargoExe programs).run schedule).tasks i = []) ∧
      (((start cargoExe programs).run schedule).drains.flatten ++
          ((start cargoExe programs).run schedule).recorder.pending).Perm
        (explicitOf programs ++ (unitsOf programs).filterMap CompileUnit.kept?) := by
  obtain ⟨schedule, completed⟩ := (start cargoExe programs).exists_run_tasks_eq_nil
  have accounted := accounted_run (accounted_start cargoExe programs) schedule
  refine ⟨schedule, completed, ?_⟩
  rw [accounted.conserved]
  refine perm_appended fun i => ?_
  obtain ⟨done, program, records⟩ := accounted.ordered i
  rw [remaining, completed, List.filterMap_nil, List.append_nil] at program
  rw [program, records]

/-! ### A worker that is not interrupted -/

/-- The steps of telling of a unit are those of the recorder's own observation. -/
theorem observe_eq_announce (r : Recorder) (u : CompileUnit) :
    r.observe u = do
      let record ← u.announce
      let isLocal := u.isLocal.isTruthy
      return (r.decision isLocal, if isLocal then r.append record else r) := by
  unfold Recorder.observe CompileUnit.announce
  cases InvocationRecord.ofArguments u.package u.args u.customBuild with
  | error => rfl
  | ok record =>
    have answered : ∀ {β : Type} (f : InvocationRecord → Logged β),
        Logged.ofExcept (.ok record) >>= f = f record := fun _ => rfl
    rw [answered, answered]
    cases (Value.bool !record.capLintsAllow).sameKey u.isLocal with
    | true => rfl
    | false => rfl

theorem step_self {w : Workers n} {i : Fin n} {t : RecorderTask} {rest : List RecorderTask}
    (h : w.tasks i = t :: rest) {r : Recorder} {event : RecorderEvent}
    {next : Option RecorderTask} (hs : t.step w.recorder = (r, event, next)) :
    (w.step i).recorder = r ∧ (w.step i).tasks i = next.toList ++ rest ∧
      (w.step i).history = w.history ++ [(i, event)] := by
  rw [recorder_step h, tasks_step h, history_step h, if_pos rfl, hs]
  exact ⟨rfl, rfl, rfl⟩

/-- A worker that nobody interrupts leaves the recorder, after it told of a unit, as one observation
does, and is given the same decision. -/
theorem run_replicate_of_observe {w : Workers n} {i : Fin n} {u : CompileUnit}
    {rest : List RecorderTask} (h : w.tasks i = .call (.observe u) :: rest) (parsed : u.IsParsed) :
    ∃ k d, (w.run (List.replicate k i)).tasks i = rest ∧
      (w.run (List.replicate k i)).history.getLast? = some (i, .decided d) ∧
      (w.recorder.observe u).result = .ok (d, (w.run (List.replicate k i)).recorder) := by
  rw [Recorder.result_observe w.recorder parsed]
  obtain ⟨record, hr⟩ := parsed
  rw [CompileUnit.kept?, hr]
  have next : u.afterAnnounce u.announce.result =
      some (if u.isLocal.isTruthy then .keep u record else .decide u) := by
    rw [CompileUnit.result_announce, hr, CompileUnit.afterAnnounce]
  obtain ⟨r₁, t₁, -⟩ := step_self h (congrArg (fun t => (_, _, t)) next)
  cases place : u.isLocal.isTruthy with
  | true =>
    rw [place] at t₁
    obtain ⟨r₂, t₂, -⟩ := step_self t₁ rfl
    obtain ⟨r₃, t₃, h₃⟩ := step_self t₂ rfl
    have after : (w.run (List.replicate 3 i)).recorder = w.recorder.append record := by
      rw [← r₁]
      exact r₃.trans r₂
    refine ⟨3, _, t₃, (congrArg List.getLast? h₃).trans List.getLast?_concat, ?_⟩
    rw [after, r₂, r₁, place]
    rfl
  | false =>
    rw [place] at t₁
    obtain ⟨r₂, t₂, h₂⟩ := step_self t₁ rfl
    have after : (w.run (List.replicate 2 i)).recorder = w.recorder := r₂.trans r₁
    refine ⟨2, _, t₂, (congrArg List.getLast? h₂).trans List.getLast?_concat, ?_⟩
    rw [after, r₁, place]
    exact congrArg (fun r => Except.ok (_, r)) (Recorder.appendAll_nil _)

end Workers

end UnusedDeps
