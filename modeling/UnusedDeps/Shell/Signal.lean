import UnusedDeps.Shell.Job

/-!
# Signals

A signal that a shell receives ends it, unless the signal is harmless or the script
says what is done about it. Scripts send signals to processes by number, to jobs
and to themselves among them.
-/

namespace UnusedDeps.Shell

namespace Signal

/-- The names of signals, each with its number; the first one stands for the end of the shell. -/
def names : List (String × Nat) :=
  ["EXIT", "HUP", "INT", "QUIT", "ILL", "TRAP", "ABRT", "BUS", "FPE", "KILL", "USR1", "SEGV",
    "USR2", "PIPE", "ALRM", "TERM", "16", "CHLD", "CONT", "STOP", "TSTP", "TTIN", "TTOU", "URG",
    "XCPU", "XFSZ", "VTALRM", "PROF", "WINCH", "IO", "PWR", "SYS", "32", "33", "RTMIN", "RTMIN+1",
    "RTMIN+2", "RTMIN+3", "RTMIN+4", "RTMIN+5", "RTMIN+6", "RTMIN+7", "RTMIN+8", "RTMIN+9",
    "RTMIN+10", "RTMIN+11", "RTMIN+12", "RTMIN+13", "RTMIN+14", "RTMIN+15", "RTMAX-14", "RTMAX-13",
    "RTMAX-12", "RTMAX-11", "RTMAX-10", "RTMAX-9", "RTMAX-8", "RTMAX-7", "RTMAX-6", "RTMAX-5",
    "RTMAX-4", "RTMAX-3", "RTMAX-2", "RTMAX-1", "RTMAX"].zipIdx

def name (n : Nat) : String := ((names.find? fun e => e.2 = n).map (·.1)).getD ""

/-- The signal that a text names, by its number or its name in any case. -/
def ofText? (s : String) : Option Nat :=
  match decimal? s with
  | some n => if n < names.length then some n else none
  | none => names.lookup (String.ofList (s.toList.map Char.toUpper))

/-- The signal that a text names which can be sent. -/
def sendable? (s : String) : Option Nat :=
  (ofText? s).filter fun n => 0 < n || (decimal? s).isSome

/-- The signals that nothing can be done about. -/
def certain : List Nat := [9, 19]

end Signal

/-- A text in single quotes, as a script can hold it; single quotes in it stand in double ones. -/
def singleQuoted (s : String) : String :=
  let isQuote (c : Char) : Bool := c = '\''
  let quoted (run : List Char) : List Char :=
    if run.any isQuote then '"' :: run ++ ['"'] else '\'' :: run ++ ['\'']
  if s.isEmpty then "''"
  else String.ofList ((s.toList.splitBy fun c d => isQuote c = isQuote d).flatMap quoted)

namespace Act

/-! ### Sending -/

/-- Sends a signal to a process, and tells whether there is one. -/
def send (signal process : Nat) : Act Bool := do
  let s ← get
  let isHarmless := harmlessSignals.contains signal
  match s.jobs.find? fun j => j.process = process && !j.noted with
  | some j =>
    stopJob signal s.machine.clock j
    return true
  | none =>
    if process = s.process && !isHarmless
        && ((s.action? signal).isNone || Signal.certain.contains signal) then
      leave (.shell (.killed signal))
    else if s.machine.isRunning process then
      let sent : SentSignal := ⟨s.machine.clock, process, signal⟩
      set { s with machine := { s.machine with signals := s.machine.signals ++ [sent] } }
      return true
    else return false

/-- How `kill` is used. -/
def killUsage : String :=
  "Usage: kill [-s sigspec | -signum | -sigspec] [pid | job]... or\nkill -l [exitstatus]"

/-- Shows the names of signals, or that of one which may be given as the status it leads to. -/
def listSignals : List String → Act Unit
  | [] =>
    print (Text.toBytes ("0\n" ++ String.join (Signal.names.tail.map fun e => e.1 ++ "\n"))) 0
  | w :: _ => do
    let n ← natural w
    let n := if 128 < n then n - 128 else n
    if 0 < n && n < Signal.names.length then print (Text.toBytes (Signal.name n ++ "\n")) 0
    else fail ("invalid signal number or exit status: " ++ w)

/-- Sends a signal to processes. -/
def kill (signal : Nat) (targets : List String) : Act Unit := do
  if targets.isEmpty then fail killUsage
  setStatus 0
  targets.forM fun t => do
    let isKnown ← match t.toList with
      | '%' :: _ => do let _ ← job (some t); pure false
      | '-' :: cs => send signal (← natural (String.ofList cs))
      | _ => send signal (← natural t)
    if !isKnown then
      complain "No such process\n"
      setStatus 1

/-- What the options of `kill` ask for. -/
structure KillOptions where
  lists : Bool := false
  signal : Option Nat := none
  targets : List String := []

/-- The signal that an option of `kill` names. -/
def namedSignal (w : String) : Act Nat :=
  match Signal.sendable? w with
  | some n => return n
  | none => fail ("invalid signal number or name: " ++ w)

/-- The options of `kill` in the letters of an argument, whether the next argument names the signal,
and whether there is a next one. -/
def killLetters (o : KillOptions) : List Char → Act (KillOptions × Bool)
  | [] => return (o, false)
  | 'l' :: cs => killLetters { o with lists := true } cs
  | ['s'] => return (o, true)
  | 's' :: cs => do return ({ o with signal := some (← namedSignal (String.ofList cs)) }, false)
  | c :: _ => fail ("Illegal option -" ++ String.singleton c)

/-- The options in front of the arguments of `kill`. -/
def killOptions (o : KillOptions) : List String → Act KillOptions
  | [] => return o
  | a :: rest =>
    match a.toList with
    | ['-', '-'] => return { o with targets := rest }
    | '-' :: c :: cs => do
      let (o, takesNext) ← killLetters o (c :: cs)
      match takesNext, rest with
      | false, rest => killOptions o rest
      | true, [] => fail "No arg for -s option"
      | true, w :: rest => killOptions { o with signal := some (← namedSignal w) } rest
    | _ => return { o with targets := a :: rest }

/-- The command `kill`. -/
def runKill (args : List String) : Act Unit := do
  let signal? : Option Nat := match args.head?.map String.toList with
    | some ('-' :: cs) => Signal.sendable? (String.ofList cs)
    | _ => none
  let o : KillOptions ← match args, signal? with
    | [], _ => fail killUsage
    | _ :: rest, some n => pure { signal := some n, targets := rest }
    | args, none => killOptions {} args
  if o.lists then
    if o.signal.isSome && !o.targets.isEmpty then fail killUsage else listSignals o.targets
  else kill (o.signal.getD 15) o.targets

/-! ### Traps -/

/-- What is done about a signal from now on: a text that is run, nothing, or what is usual. -/
def setTrap (signal : Nat) (action : Option String) : Act Unit :=
  modify fun s =>
    let others := s.traps.filter fun t => t.1 ≠ signal
    { s with traps := match action with
      | some a => (signal, a) :: others
      | none => others }

/-- Shows what is done about signals. -/
def listTraps : Act Unit := do
  let s ← get
  let lines := Signal.names.filterMap fun e => (Mapping.get? s.traps e.2).map fun action =>
    "trap -- " ++ singleQuoted action ++ " " ++ e.1 ++ "\n"
  print (Text.toBytes (String.join lines)) 0

/-- Sets what is done about signals, up to a word that names none. -/
def setTraps (action : Option String) : List String → Act Unit
  | [] => setStatus 0
  | w :: rest => do
    match Signal.ofText? w with
    | some n =>
      setTrap n action
      setTraps action rest
    | none =>
      writeError ("trap: " ++ w ++ ": bad trap\n")
      setStatus 1

/-- The command `trap`. -/
def runTrap (args : List String) : Act Unit := do
  let (_, args) ← letters [] args
  match args with
  | [] => listTraps
  | [w] => setTraps none [w]
  | action :: rest =>
    if ((decimal? action).bind fun _ => Signal.ofText? action).isSome then setTraps none args
    else setTraps (if action = "-" then none else some action) rest

end Act

end UnusedDeps.Shell
