import UnusedDeps.Shell.Options

/-!
# Processes in the background

A command that is left in the background is a job of its shell. It has a number,
can be waited for, and is forgotten when its end has been shown or its number goes
to another job. The latest job is the current one, the one before it the previous
one.
-/

namespace UnusedDeps.Shell

/-- What is said of a command that a signal ended. -/
def endingTexts : List (Nat × String) :=
  [(1, "Hangup"), (2, "Interrupt"), (3, "Quit"), (4, "Illegal instruction"),
    (5, "Trace/breakpoint trap"), (6, "Aborted"), (7, "Bus error"),
    (8, "Floating point exception"), (9, "Killed"), (10, "User defined signal 1"),
    (11, "Segmentation fault"), (12, "User defined signal 2"), (13, "Broken pipe"),
    (14, "Alarm clock"), (15, "Terminated"), (16, "Stack fault"), (24, "CPU time limit exceeded"),
    (25, "File size limit exceeded"), (26, "Virtual timer expired"),
    (27, "Profiling timer expired"), (29, "I/O possible"), (30, "Power failure"),
    (31, "Bad system call")]

/-- The signals of which nothing is said when they end a command that was waited for. -/
def quietSignals : List Nat := [2, 13]

/-- The signals that do not end a process. -/
def harmlessSignals : List Nat := [0, 17, 18, 23, 28]

/-! ### The jobs of a shell -/

namespace Job

def stateText (j : Job) : String :=
  if !j.noted then "Running"
  else
    match j.ending with
    | .exited 0 => "Done"
    | .exited n => "Done(" ++ toString n ++ ")"
    | .killed n => (endingTexts.lookup n).getD ("Unknown signal " ++ toString n)

/-- Whether the number of a job can go to another one. -/
def isSpent (j : Job) : Bool := j.noted && j.awaited

/-- The width of what is said of a job in front of its commands. -/
def lineWidth : Nat := 33

def line (mark : Char) (withProcess : Bool) (j : Job) : String :=
  let start := "[" ++ toString j.number ++ "] " ++ String.ofList [mark, ' ']
    ++ (if withProcess then toString j.process ++ " " else "") ++ j.stateText
  let blanks := String.ofList (List.replicate (max 1 (lineWidth - start.length)) ' ')
  start ++ blanks ++ String.join (List.replicate (j.parts - 1) " | ") ++ "\n"

end Job

/-- The least number that a new job can have. -/
def freeNumber (jobs : List Job) : Nat :=
  let taken := (jobs.reverse.filter fun j => !j.isSpent).map Job.number
  (sortUnique taken).foldl (fun least n => if n = least then least + 1 else least) 1

/-- The lines that tell of jobs, the latest first, among those that are left when the ended ones
before them are forgotten. -/
def jobLines (withProcess : Bool) : List Job → List Job → List String
  | _, [] => []
  | kept, j :: rest =>
    let mark := match kept.length with
      | 0 => '+'
      | 1 => '-'
      | _ => ' '
    j.line mark withProcess :: jobLines withProcess (if j.noted then kept else j :: kept) rest

namespace Act

/-- Says how a command ended when a signal ended it. -/
def reportEnding : Ending → Act Unit
  | .killed n =>
    match endingTexts.lookup n with
    | some text => if quietSignals.contains n then return () else writeError (text ++ "\n")
    | none => return ()
  | .exited _ => return ()

/-- Makes a process a job of the shell; it has run up to now, and had streams open at its end. -/
def addJob (process parts : Nat) (ending : Ending) (streams : List Nat) : Act Unit :=
  modify fun s =>
    let m := s.machine
    let ends := m.clock
    let added : Background := { process, last := m.lastProcess, ends, streams }
    let number := freeNumber s.jobs
    let others := s.jobs.filter fun j => j.number ≠ number
    { s with
      jobs := { number, process, parts, ends, ending } :: others
      background := some process
      machine := { m with background := added :: m.background } }

/-- Ends a job by a signal at a time, unless it has ended by then or the signal is harmless. -/
def stopJob (signal time : Nat) (j : Job) : Act Unit :=
  modify fun s =>
    if j.ends ≤ time || harmlessSignals.contains signal then s
    else
      { s with
        jobs := s.jobs.map fun k =>
          if k.process = j.process then { k with ends := time, ending := .killed signal } else k
        machine := s.machine.stop j.process time }

/-- Takes the signals that other processes have sent to jobs. -/
def takeJobSignals : Act Unit := do
  let s ← get
  let (taken, others) := s.machine.signals.partition fun g =>
    s.jobs.any fun j => j.process = g.process
  if !taken.isEmpty then
    set { s with machine := { s.machine with signals := others } }
    taken.forM fun g => do
      match (← get).jobs.find? fun j => j.process = g.process with
      | some j => stopJob g.signal g.time j
      | none => return ()

/-- The job that an argument stands for; without one, the current job. -/
def job (w : Option String) : Act Job := do
  let jobs := (← get).jobs
  let known (reason : String) : Option Job → Act Job
    | some j => return j
    | none => fail reason
  let name := (w.getD "%").toList
  if ["%", "%+", "%%"].contains (String.ofList name) then known "No current job" jobs.head?
  else if name = ['%', '-'] then known "No previous job" jobs.tail.head?
  else
    let number := match name with
      | '%' :: ds => decimal? (String.ofList ds)
      | _ => none
    known ("No such job: " ++ w.getD "") (jobs.find? fun j => number = some j.number)

/-- The signal that tells of the end of a child. -/
def childSignal : Nat := 17

/-- Sends the shell the signal for the end of a child at a time, if the script says what is done
then. -/
def noteChild (time : Nat) : Act Unit :=
  modify fun s =>
    if (s.action? childSignal).any fun a => !a.isEmpty then
      let sent : SentSignal := ⟨time, s.process, childSignal⟩
      { s with machine := { s.machine with signals := s.machine.signals ++ [sent] } }
    else s

/-! ### Telling of jobs -/

/-- The command `jobs`. -/
def runJobs (args : List String) : Act Unit := do
  let (options, names) ← letters ['l', 'p'] args
  let noted := (← get).jobs
  let chosen ← if names.isEmpty then pure noted else names.mapM fun w => job (some w)
  setStatus 0
  if options.contains 'p' then
    print (Text.toBytes (String.join (chosen.map fun j => toString j.process ++ "\n"))) 0
  else
    let lines := (noted.zip (jobLines (options.contains 'l') [] noted)).filter fun l =>
      chosen.any fun j => j.number = l.1.number
    print (Text.toBytes (String.join (lines.map (·.2)))) 0
    modify fun s => { s with
      jobs := s.jobs.filter fun j => !(j.noted && chosen.any fun k => k.number = j.number) }

/-- The commands that would go on with a job, which only a shell with a terminal can. -/
def runContinue (args : List String) : Act Unit := do
  let (_, args) ← letters [] args
  let _ ← job args.head?
  fail ("job " ++ args.head?.getD "(null)" ++ " not created under job control")

/-! ### Waiting -/

/-- Waits until a time, and notes which jobs have ended by then. -/
def waitUntil (time : Nat) : Act Unit := do
  takeJobSignals
  let s ← get
  let now := max time s.machine.clock
  let isOver (j : Job) : Bool := j.ends ≤ now
  let ended := s.jobs.filter fun j => isOver j && !j.noted
  set { s with
    machine := { s.machine with clock := now }
    jobs := s.jobs.map fun j => if isOver j then { j with noted := true } else j }
  ended.forM fun j => noteChild j.ends

/-- How long a shell has to wait to be at rest, from which it does not wake up at once. -/
def restTime : Nat := 10000000

/-- How long a shell takes to wake up from rest. -/
def wakingTime : Nat := 100000

/-- Waits until a time or up to a signal about which the shell does something, and tells whether
no such signal came. The end of a job before that time is such a signal, too, if the script says
what is done then. What happens while the shell wakes up counts as before the signal. -/
def waitUndisturbed (time : Nat) : Act Bool := do
  let s ← get
  let isHeeded (signal : Nat) : Bool := (s.action? signal).any fun a => !a.isEmpty
  let sent := s.machine.signals.filter fun g =>
    g.process = s.process && g.time ≤ time && isHeeded g.signal
  let isEarlier (j : Job) : Bool := !j.noted && j.ends < time && isHeeded childSignal
  let ends := (s.jobs.filter isEarlier).map fun j : Job =>
    (⟨j.ends, s.process, childSignal⟩ : SentSignal)
  let wakes (g : SentSignal) : Nat :=
    if s.machine.clock + restTime ≤ g.time then g.time + wakingTime else g.time
  match ((sent ++ ends).mergeSort fun g h => g.time ≤ h.time).find? fun g => wakes g ≤ time with
  | some g =>
    waitUntil g.time
    setStatus (128 + g.signal)
    return false
  | none =>
    waitUntil time
    return true

/-- Waits for jobs, the status of the last of which becomes that of the shell. -/
def waitFor : List String → Act Unit
  | [] => return ()
  | w :: rest => do
    let found ← if w.toList.head? = some '%' then some <$> job (some w)
      else do
        let n ← natural w
        pure ((← get).jobs.find? fun j => j.process = n)
    match found with
    | none =>
      setStatus 127
      waitFor rest
    | some j =>
      if ← waitUndisturbed j.ends then
        if !j.noted then reportEnding j.ending
        modify fun s => { s with
          jobs := s.jobs.map fun k =>
            if k.number = j.number then { k with awaited := true } else k }
        setStatus j.ending.status
        waitFor rest

/-- The command `wait`. -/
def runWait (args : List String) : Act Unit := do
  let (_, args) ← letters [] args
  setStatus 0
  if args.isEmpty then
    if ← waitUndisturbed ((← get).jobs.foldl (fun t j => max t j.ends) 0) then
      modify fun s => { s with jobs := s.jobs.map fun j => { j with awaited := true } }
  else waitFor args

end Act

end UnusedDeps.Shell
