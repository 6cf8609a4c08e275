import UnusedDeps.Shell.Builtin
import UnusedDeps.Shell.Reader
import UnusedDeps.Shell.Redirect

/-!
# Running scripts

A shell runs a script line by line. A command is compound, built into the shell,
a function, or the name of a program that is looked for in the directories of
`PATH` and started. Some commands run in a shell of their own, which changes
nothing in the shell that starts it. How programs are started and how the commands
inside a command are run are parameters; a bound on how deep commands lie closes
the circle.
-/

namespace UnusedDeps.Shell

variable [Whereabouts]

/-- What is known about a command when it runs. -/
structure Setting where
  /-- Whether its failure is looked at, so that it does not end a strict shell. -/
  tested : Bool := false
  /-- Whether it is the last one of its shell, whose place a program can take. -/
  final : Bool := false

/-- A way to run commands. -/
abbrev Runner := Setting → Command → Act Unit

namespace Act

/-! ### Scripts -/

/-- Takes over the aliases and the number of the next document into a source. -/
def continued (s : Session) (source : Source) : Source :=
  { source with aliases := s.aliases, next := s.nextDocument }

/-- Shows the text that was read of a script, up to what is left of it, when the shell is to show
what it reads. -/
def showRead (source : Source) (left : Nat) : Act Unit := do
  if (← get).isOn 'v' then
    writeError (String.ofList (source.rest.take (source.rest.length - left)))

/-- The characters that are left behind some lines of a text. -/
def behindLines : Nat → List Char → Nat
  | 0, cs => cs.length
  | _ + 1, [] => 0
  | n + 1, c :: r => if c = '\n' then behindLines n r else behindLines (n + 1) r

/-- Runs the lines that are left of a script, and tells whether there were any. The bound is on
their number. -/
def runLines (run : Runner) (setting : Setting) (isFile : Bool) : Nat → Source → Act Bool
  | 0, _ => return false
  | bound + 1, source => do
    let s ← get
    match (continued s source).line? with
    | .error f =>
      if isFile then showRead source (behindLines (max 1 (f.line - source.line)) source.rest)
      modify fun s => { s with line := f.line }
      fail ("Syntax error: " ++ f.reason)
    | .ok none =>
      if isFile then showRead source 0
      return false
    | .ok (some l) =>
      if isFile then showRead source l.rest.rest.length
      modify fun s =>
        { s with documents := l.documents ++ s.documents, nextDocument := l.rest.next }
      run { setting with final := setting.final && l.isLast } l.command
      let _ ← runLines run setting isFile bound l.rest
      return true

/-- Runs the text of a script. -/
def runText (run : Runner) (setting : Setting) (line : Nat) (text : String) : Act Bool :=
  runLines run setting false (text.length + 2) (.ofText line text)

def runFileText (run : Runner) (setting : Setting) (text : String) : Act Bool :=
  runLines run setting true (text.length + 2) (.ofText 1 text)

/-! ### Signals -/

/-- Runs what the script wants to be run for a signal, and keeps the status. -/
def runForSignal (run : Runner) (action : String) : Act Unit := do
  let status := (← get).status
  let _ ← runText run {} 1 action
  setStatus status

def endsShell (s : Session) (g : Nat) : Bool :=
  Signal.certain.contains g || ((s.action? g).isNone && !harmlessSignals.contains g)

/-- Ends the shell when a signal that does so has come by a time. -/
def endAtSignal (time : Nat) : Act Unit := do
  let s ← get
  let ends (g : SentSignal) : Bool :=
    g.process = s.process && g.time ≤ time && endsShell s g.signal
  match s.machine.signals.find? ends with
  | some g => leave (.shell (.killed g.signal))
  | none => return

/-- Takes the signals that have come by a time: one that ends the shell first, then those about
which the script does something, each of them once and in the order of their numbers. -/
def takeSignalsBefore (run : Runner) (time : Nat) : Act Unit := do
  endAtSignal time
  let s ← get
  let (mine, others) := s.machine.signals.partition fun g =>
    g.process = s.process && g.time ≤ time
  if !mine.isEmpty then
    set { s with machine := { s.machine with signals := others } }
    (sortUnique (mine.map SentSignal.signal)).forM fun g => do
      let action := ((← get).action? g).getD ""
      if !action.isEmpty then runForSignal run action

/-- Takes the signals that have been sent to the shell and to its jobs. -/
def takeSignals (run : Runner) : Act Unit := do
  let machine := (← get).machine
  if !machine.signals.isEmpty then
    takeJobSignals
    takeSignalsBefore run machine.clock

/-! ### Shells of their own -/

/-- How a shell ends after a script. -/
def endingOf (status : Nat) : Option Leave → Ending
  | some (.shell e) => e
  | some (.replaced e) => e
  | some .failure => .exited 2
  | _ => .exited (status % 256)

/-- Runs what the script wants to be run at the end of the shell, and gives its end. -/
def atEnd (run : Runner) (left : Option Leave) : Act Ending := do
  let s ← get
  let e := endingOf s.status left
  match left, e, Mapping.get? s.traps 0 with
  | some (.replaced _), _, _ => return e
  | _, .exited n, some action =>
    if action.isEmpty then return e
    else
      setTrap 0 none
      set { ← get with status := n }
      match ← attempt (do let _ ← runText run {} 1 action) with
      | some (.shell e) => return e
      | some (.replaced e) => return e
      | some .failure => return .exited 2
      | _ => return e
  | _, _, _ => return e

/-- Runs a script to the end of its shell. -/
def runToEnd (run : Runner) (action : Act Unit) : Act Ending := do
  let e ← atEnd run (← attempt action)
  modify fun s =>
    let m := s.machine
    { s with machine := { m with
        shells := m.shells.filter (· ≠ s.process)
        signals := m.signals.filter fun g => g.process ≠ s.process } }
  return e

/-- How long it takes until another process runs. -/
def startTime : Nat := 300000

/-- How long a shell is busy with starting another process. -/
def forkTime : Nat := 100000

/-- How long it takes to run a command of a script. -/
def stepTime : Nat := 1000

/-- The session that a shell of its own starts with. -/
def ofShell (s : Session) : Session :=
  let (m, n) := s.machine.startProcess
  { s with
    process := n
    parent := s.process
    machine := { m.pass startTime with shells := n :: m.shells }
    traps := s.traps.filter fun t => t.2.isEmpty
    jobs := [] }

/-- Runs an action in a shell of its own, and gives its end and the streams that it had open then. -/
def inOtherShell (run : Runner) (action : Act Unit) : Act (Ending × List Nat) := do
  let s ← get
  let (result, after) := (runToEnd run action).run.run (ofShell s)
  set { s with machine := after.machine }
  let streams := after.descriptors.map (·.2)
  match result with
  | .ok e => return (e, streams)
  | .error _ => return (.exited 2, streams)

/-- Runs an action in a shell of its own, for whose end the shell waits. -/
def inShell (run : Runner) (action : Act Unit) : Act Ending := do
  let (e, streams) ← inOtherShell run action
  modify fun s => { s with machine := s.machine.release streams }
  return e

/-- Notes the end of a command that the shell has waited for. -/
def noteEnding (e : Ending) : Act Unit := do
  waitUntil 0
  noteChild (← get).machine.clock
  reportEnding e
  setStatus e.status

/-- The bytes that a command writes. -/
def outputOf (run : Runner) (c : Command) : Act (List UInt8) := do
  let s ← get
  let (m, n) := s.machine.openPipe {} []
  set { s with machine := m }
  let e ← inShell run do
    setStream 1 n
    run { final := true } c
  waitUntil ((← get).machine.lastWriting n)
  noteEnding e
  let m := (← get).machine
  modify fun t =>
    { t with
      status := s.status
      outputStatus := e.status
      machine := m.dropStreams n }
  endAtSignal m.clock
  return m.written n

/-! ### Programs -/

/-- The shell that runs files without an interpreter. -/
def shellFile : String := "/bin/sh"

/-- What a program starts with that takes the place of the shell or runs beside it. -/
def launchOf (s : Session) (replaces : Bool) (name : String) (args : List String) : Launch :=
  let (m, n) := s.machine.startProcess
  let quiet := s.traps.filterMap fun t => if t.2.isEmpty then some t.1 else none
  let machine := if replaces then s.machine else m.pass startTime
  { name, args, machine
    env := s.exports
    directory := s.directory
    descriptors := s.descriptors
    process := if replaces then s.process else n
    parent := if replaces then s.parent else s.process
    ignored := quiet ++ s.ignored
    limits := s.limits }

/-- The end of a program that is started from the first of several files from which it can be, or
why it does not start. -/
def startFirst (start : Launcher) (replaces : Bool) (name : String) (args : List String) :
    FileFault → List String → Act (Except FileFault Ending)
  | fault, [] => return .error fault
  | fault, file :: rest => do
    let s ← get
    let launch := launchOf s replaces name args
    let next := fun f => startFirst start replaces name args f rest
    let result : Except FileFault Finished := match s.nodeAt file with
      | .error f => .error f
      | .ok _ =>
        match start file launch with
        | .error .badFormat =>
          start shellFile { launch with name := shellFile, args := file :: args }
        | r => r
    match result with
    | .ok f =>
      set { s with machine := f.machine }
      return .ok f.ending
    | .error .missing => next fault
    | .error .notDirectory => next fault
    | .error f => next f

/-- Starts the program that a name stands for and gives its end; a program that cannot be started
ends with a status of its own. There is no end when no program is found. -/
def runProgram? (start : Launcher) (replaces : Bool) (directories : Option (List String))
    (name : String) (args : List String) : Act (Option Ending) := do
  let found ← if name.toList.contains '/' then pure (.ok [name]) else findProgram directories name
  match found with
  | .error f =>
    complainOf name f
    return none
  | .ok files =>
    match ← startFirst start replaces name args .missing files with
    | .ok e => return some e
    | .error f =>
      complainOf name f
      return some (.exited (unstartedStatus f))

/-! ### Simple commands -/

/-- What is shown in front of a command: the text of `PS4`, expanded if it can be. Commands are not
run in it. -/
def traceMark (output : Command → Act (List UInt8)) : Act String := do
  let s ← get
  let text := (s.value? "PS4").getD ""
  match (Read.pieces (return .nothing) { quoting := .document }).run (.ofText 1 text) with
  | .error f =>
    modify fun s => { s with line := f.line }
    complain ("Syntax error: " ++ f.reason)
    modify fun t => { t with line := s.line }
    return text
  | .ok (w, _) =>
    tryCatch (documentText output w) fun
      | .failure => return text
      | l => leave l

/-- Shows a command before it runs, on the descriptor that errors had before the command. -/
def trace (output : Command → Act (List UInt8)) (descriptors : Mapping Nat Nat)
    (assignments : List (String × String)) (fields : List String) : Act Unit := do
  if (← get).isOn 'x' then
    let mark ← traceMark output
    let s ← get
    let words := assignments.map (fun a => a.1 ++ "=" ++ a.2) ++ fields
    set { s with descriptors := descriptors }
    writeError (mark ++ String.intercalate " " words ++ "\n")
    modify fun t => { t with descriptors := s.descriptors }

/-- Carries out an assignment in front of a command, and gives its name and value. A passing one
ends with the command, which receives the variable; other commands receive it, too, when it is
exported. -/
def assignBefore (output : Command → Act (List UInt8)) (passing exporting : Bool)
    (a : String × Word) : Act (String × String) := do
  let name := a.1
  let value ← assignedText output a.2
  if passing then hide name
  assign name value
  if passing || exporting then mark name fun v => { v with exported := true }
  return (name, value)

/-- How many functions may call each other. -/
def maxCalls : Nat := 1000

def call (run : Runner) (setting : Setting) (body : Command) (args : List String) : Act Unit := do
  let s ← get
  if maxCalls ≤ s.calls then
    fail ("Maximum function recursion depth (" ++ toString maxCalls ++ ") reached")
  set { s with
    args := args
    calls := s.calls + 1
    loops := 0
    optionIndex := 1
    optionOffset := none }
  let left ← attempt (withFrame (run { setting with final := false } body))
  modify fun t =>
    { t with
      args := s.args
      calls := s.calls
      loops := s.loops
      optionIndex := s.optionIndex
      optionOffset := s.optionOffset }
  match left with
  | some .function => return ()
  | left => leaveAgain left

/-- The bytes of a script in a file, which may be what a descriptor stands for. -/
def scriptBytes (name : String) : Act (Except FileFault (List UInt8)) := do
  let s ← get
  match s.nodeAt name with
  | .ok (.file bytes _) => return .ok bytes.data.toList
  | .ok (.device (.descriptor d)) =>
    match (Mapping.get? s.descriptors d).bind fun n => (s.machine.unread? n).map fun bs => (n, bs) with
    | none => return .ok []
    | some (n, bytes) =>
      set { s with machine := s.machine.advance n bytes.length true }
      return .ok bytes
  | .ok _ => return .ok []
  | .error f => return .error f

def scriptFile? (s : Session) (name : String) : Option String :=
  let isFile (file : String) : Bool :=
    match s.nodeAt file with
    | .ok (.file ..) => true
    | .ok (.program _) => true
    | _ => false
  if name.toList.contains '/' then some name else (s.searched.map (fileIn name)).find? isFile

/-- Runs a script in a file, under whose name the shell complains meanwhile. -/
def runFile (run : Runner) (setting : Setting) (args : List String) : Act Unit := do
  let (_, args) ← letters [] args
  match args with
  | [] => setStatus 0
  | name :: _ =>
    match scriptFile? (← get) name with
    | none => fail (name ++ ": not found")
    | some file =>
      match ← scriptBytes file with
      | .error f => fail ("cannot open " ++ file ++ ": " ++ openingText "No such file" f)
      | .ok bytes =>
        modify fun s => { s with builtin := some file }
        let body : Act Unit := do
          if !(← runFileText run { setting with final := false } (Text.ofBytes bytes)) then
            setStatus 0
        match ← attempt body with
        | some .function => return ()
        | left => leaveAgain left

/-- Runs its arguments as a script. -/
def runEval (run : Runner) (setting : Setting) (args : List String) : Act Unit := do
  let text := String.intercalate " " args
  if !(← runText run { setting with final := false } 1 text) then setStatus 0

/-- The action of a command of the shell. -/
def builtinAction? (start : Launcher) (run : Runner) (setting : Setting) (name : String) :
    Option (List String → Act Unit) :=
  match name with
  | "eval" => some (runEval run setting)
  | "." => some (runFile run setting)
  | "exec" =>
    some fun args => do
      match args with
      | [] => setStatus 0
      | name :: args =>
        let s ← get
        let files := if name.toList.contains '/' then [name] else s.searched.map (fileIn name)
        match ← startFirst start true name args .missing files with
        | .ok e => leave (.replaced e)
        | .error f =>
          complainOf name f
          leave (.shell (.exited (unstartedStatus f)))
  | "command" => some runCommandOptions
  | name => builtin? name

/-- Runs an action as a command of the shell, of which complaints tell; what it has printed is written
at its end. -/
def asBuiltin (name : String) (action : Act Unit) : Act Unit := do
  let before := (← get).builtin
  modify fun s => { s with builtin := some name }
  let left ← attempt action
  let isWritten ← writePrinted
  if left.isNone && !isWritten then
    complain (name ++ ": I/O error")
    setStatus (Nat.lor (← get).status 1)
  modify fun s => { s with builtin := before }
  leaveAgain left

/-- Runs the program that a name stands for, in place of the shell or beside it. -/
def runExternal (start : Launcher) (setting : Setting) (directories : Option (List String))
    (name : String) (args : List String) : Act Unit := do
  let replaces := setting.final && (← get).traps.all fun t => t.2.isEmpty
  match ← runProgram? start replaces directories name args with
  | none => setStatus 127
  | some e => if replaces then leave (.replaced e) else noteEnding e

/-- What the name of a command means. -/
inductive Meaning where
  /-- A command of the shell, whose errors may end the shell. -/
  | builtin (isSpecial : Bool) (action : List String → Act Unit)
  | function (body : Command)
  | program

/-- What the name of a command means; functions may be left out. -/
def meaning (start : Launcher) (run : Runner) (setting : Setting) (s : Session)
    (withFunctions : Bool) (name : String) : Meaning :=
  match if withFunctions then Mapping.get? s.functions name else none with
  | some body => .function body
  | none =>
    match builtinAction? start run setting name with
    | some action => .builtin (withFunctions && specialNames.contains name) action
    | none => .program

/-- What is left of a command when `command` and its options have been taken away. -/
structure Target where
  words : List String
  withFunctions : Bool := true
  /-- Whether programs are looked for where the usual ones are. -/
  usual : Bool := false

/-- The words behind the options of `command`, and whether one of these asks for the usual programs;
`none` when there are none or when names are described. -/
def commandWords? : List String → Option (Bool × List String)
  | [] => none
  | a :: rest =>
    match a.toList with
    | ['-', '-'] => if rest.isEmpty then none else some (false, rest)
    | '-' :: c :: cs =>
      if (c :: cs).all (· = 'p') then (commandWords? rest).map fun r => (true, r.2) else none
    | _ => some (false, a :: rest)

/-- What the words of a command ask for; at most as many words as the bound says are taken away. -/
def targetOf (s : Session) : Nat → Target → Target
  | 0, t => t
  | bound + 1, t =>
    match t.words with
    | "command" :: rest =>
      if t.withFunctions && (Mapping.get? s.functions "command").isSome then t
      else
        match commandWords? rest with
        | some (usual, words) => targetOf s bound ⟨words, false, t.usual || usual⟩
        | none => t
    | _ => t

/-- What the words of a command ask for. -/
def target (s : Session) (words : List String) : Target := targetOf s words.length { words }

/-- The commands after whose names assignments are not split. -/
def declaringNames : List String := ["export", "readonly", "local", "alias"]

/-- Whether a command, as far as its words are known, is one that declares variables. -/
def declares (s : Session) (words : List String) : Bool :=
  let t := target s words
  let name := t.words.head?.getD ""
  declaringNames.contains name && !(t.withFunctions && (Mapping.get? s.functions name).isSome)

/-- The fields of the words of a command. After the name of a command that declares variables,
assignments are not split. -/
def commandFields (output : Command → Act (List UInt8)) (words : List Word) : Act (List String) :=
  words.foldlM (fun fs w => do
    match w.assignment? with
    | some (name, value) =>
      if declares (← get) fs then return fs ++ [name ++ "=" ++ (← assignedText output value)]
      else return fs ++ (← fields output w)
    | none => return fs ++ (← fields output w)) []

/-- Runs a command whose name and arguments are known. -/
def runNamed (start : Launcher) (run : Runner) (setting : Setting) (m : Meaning) (usual : Bool)
    (name : String) (args : List String) : Act Unit :=
  match m with
  | .builtin isSpecial action => do
    match ← attempt (asBuiltin name (action args)) with
    | some .failure => if isSpecial then leave .failure else setStatus 2
    | left => leaveAgain left
  | .function body => call run setting body args
  | .program =>
    runExternal start setting (if usual then some Session.usualDirectories else none) name args

/-- Runs a simple command. What is assigned in front of it passes with it, except before commands
whose errors end the shell. -/
def runSimple (start : Launcher) (run : Runner) (setting : Setting) (line : Nat)
    (assignments : List (String × Word)) (words : List Word) (redirections : List Redirection) :
    Act Unit := do
  modify fun s => { s with line := line, outputStatus := 0 }
  let output := outputOf run
  let fields ← commandFields output words
  let ready ← readyRedirections output redirections
  let descriptors := (← get).descriptors
  let t := target (← get) fields
  let isExec := t.words.head? = some "exec"
  let m := meaning start run setting (← get) t.withFunctions (t.words.head?.getD "")
  let isSpecial := match m with
    | .builtin isSpecial _ => isSpecial
    | _ => false
  let passing := !assignments.isEmpty && !fields.isEmpty && !isSpecial
  let exporting := isExec && 1 < t.words.length
  let body : Act Unit := do
    let values ← assignments.mapM (assignBefore output passing exporting)
    trace output descriptors values fields
    match t.words with
    | [] => setStatus (← get).outputStatus
    | name :: args => runNamed start run setting m t.usual name args
  let redirected : Act Unit := do
    if ← redirect output ready then
      if passing then withFrame body else body
    else if isSpecial then leave .failure
    else setStatus 2
  if isExec then redirected else keepingDescriptors (ready.map (·.descriptor)) redirected

/-! ### Compound commands -/

/-- The end of a shell that goes on for ever, or up to a signal. -/
def neverEnd (run : Runner) : Act Unit := do
  let s ← get
  let times := (s.machine.signals.filter fun g => g.process = s.process).map SentSignal.time
  match sortUnique times with
  | time :: _ =>
    waitUntil time
    takeSignalsBefore run time
  | [] => pure ()
  waitUntil Machine.forever
  leave (.shell (.killed 9))

/-- The time after which nothing is waited for. -/
def endlessTime : Nat := 100 * tenPow 9

/-- A round of a loop: `none` when the loop goes on, else whether it is left and how. -/
def round (action : Act Unit) : Act (Option (Option Leave)) := do
  match ← attempt action with
  | none => return none
  | some (.loop levels again) =>
    if 1 < levels then return some (some (.loop (levels - 1) again))
    else if again then return none
    else return some none
  | some l => return some (some l)

/-- Runs a body while a condition holds, at most as often as the bound says. -/
def repeatWhile (atBound condition body : Act Unit) (isUntil : Bool) : Nat → Nat → Act Unit
  | 0, _ => atBound
  | bound + 1, status => do
    match ← round condition with
    | some left =>
      if left ≠ some .function then setStatus status
      leaveAgain left
    | none =>
      if ((← get).status = 0) = isUntil then setStatus status
      else
        match ← round body with
        | some left => leaveAgain left
        | none => repeatWhile atBound condition body isUntil bound (← get).status

/-- Runs a body for each of several values, one or more. -/
def repeatEach (body : String → Act Unit) : List String → Act Unit
  | [] => return ()
  | v :: rest => do
    match ← round (body v) with
    | some left => leaveAgain left
    | none => repeatEach body rest

/-- An action inside one more loop. -/
def inLoop (action : Act Unit) : Act Unit := do
  modify fun s => { s with loops := s.loops + 1 }
  andFinally action (modify fun s => { s with loops := s.loops - 1 })

/-- Runs a command that may be left out, which then succeeds. -/
def runAny (run : Runner) (setting : Setting) : Command → Act Unit
  | .sequence [] => setStatus 0
  | c => run setting c

/-- Runs the first of several commands one of whose patterns a text has. -/
def runCase (run : Runner) (setting : Setting) (subject : String) :
    List (List Word × Command) → Act Unit
  | [] => setStatus 0
  | (patterns, c) :: rest => do
    let fits ← patterns.anyM fun w => do
      return Pattern.accepts (← pattern (outputOf run) w) subject.toList
    if fits then runAny run setting c else runCase run setting subject rest

/-- Runs commands one after another. -/
def runSequence (run : Runner) (setting : Setting) : List Command → Act Unit
  | [] => return ()
  | [c] => run setting c
  | c :: rest => do
    run { setting with final := false } c
    runSequence run setting rest

/-- How much can be written into a pipe that nothing reads. -/
def pipeRoom : Nat := 65536

/-- What there is to be known about the end of a pipe when not all could be written, given the pipe
before it was read, and afterwards, and the time at which the last process ended that read it. -/
def closing? (before after : Pipe) (time : Nat) : Option Closing :=
  let room := before.size - after.size + pipeRoom
  if time < before.lastTime || room < before.size then some ⟨time, room⟩ else none

/-- What a run of a pipeline shows about the pipe behind its first command. -/
inductive PipeUse where
  /-- Everything could be written. -/
  | whole
  /-- The pipe came to an end before. -/
  | closed (closing : Closing)
  /-- More was to be written, and perhaps to be read, than the pipe was made for. -/
  | narrow

/-- The numbers of bytes for which a pipe is made, one after the other, until it has room enough; the
last one is for any number. -/
def pipeLimits : List (Option Nat) := [some 0x40000, some 0x400000, some 0x4000000, none]

/-- Runs the commands of a pipeline, each in a shell of its own, all from the same time on, and
gives their ends with the times of these. The first command reads the given stream. It runs with a
pipe that is made for so many bytes first, and again for more; a command that would write more than
is read runs again with a pipe that comes to an end. -/
def runPipeline (run : Runner) (began : Nat) (input : Option Nat) :
    List Command → Act (List (Ending × Nat))
  | [] => return []
  | c :: rest => do
    let before ← get
    let runAll (pipe : Pipe) : Act (List (Ending × Nat) × PipeUse) := do
      let (m, n) := before.machine.openPipe pipe []
      set { before with machine := { m with clock := began } }
      let e ← inShell run do
        match input with
        | some i => setStream 0 i
        | none => pure ()
        if !rest.isEmpty then setStream 1 n
        run { final := true } c
      let m := (← get).machine
      let isNarrow := (m.pipe? n).any Pipe.isOverLimit
      if isNarrow then modify fun s => { s with machine := { s.machine with isHalted := false } }
      let others ← runPipeline run (began + forkTime) (some (n + 1)) rest
      let after := (← get).machine
      let closing := do closing? (← m.pipe? n) (← after.pipe? n) (← others.head?).2
      waitUntil m.clock
      let use := match closing with
        | some c => .closed c
        | none => if isNarrow then .narrow else .whole
      return ((e, m.clock) :: others, use)
    let rec runWider : List (Option Nat) → Act (List (Ending × Nat))
      | [] => return []
      | limit :: limits => do
        match ← runAll { limit } with
        | (es, .whole) => return es
        | (_, .closed closing) => return (← runAll { closing := some closing }).1
        | (_, .narrow) => runWider limits
    runWider pipeLimits

/-- Runs a command to whose end the shell lasts. -/
def runLast (run : Runner) (c : Command) : Act Unit :=
  match c with
  | .redirected line c redirections => do
    modify fun s => { s with line := line }
    let ready ← readyRedirections (outputOf run) redirections
    if ← redirect (outputOf run) ready then run { final := true } c else leave .failure
  | c => run { final := true } c

def runBackground (run : Runner) (c : Command) : Act Unit := do
  let s ← get
  let began := s.machine.clock
  let (m, n) := s.machine.openStream .null
  set { s with machine := m }
  let process := s.machine.lastProcess + 1
  let (e, streams) ← inOtherShell run do
    setStream 0 n
    modify fun s => { s with rounds := Session.maxBackgroundRounds }
    runLast run c
  let parts := match c with
    | .pipeline cs => cs.length
    | _ => 1
  addJob process parts e streams
  modify fun t => { t with machine := { t.machine with clock := began + forkTime } }
  setStatus 0

/-- Ends a strict shell after a failure that nothing looks at. -/
def checkFailure (setting : Setting) : Act Unit := do
  let s ← get
  if s.isOn 'e' && !setting.tested && s.status ≠ 0 then
    leave (.shell (.exited (s.status % 256)))

/-- Runs an action that takes the place of what is left of the shell. -/
def inPlace (action : Act Unit) : Act Unit := do
  modify fun s => { s with loops := 0 }
  match ← attempt action with
  | some (.replaced e) => leave (.replaced e)
  | left => leave (.shell (endingOf (← get).status left))

/-- Runs a command; how the commands inside it are run is a parameter. -/
def runCommand (start : Launcher) (run : Runner) (setting : Setting) (c : Command) : Act Unit := do
  spend stepTime
  let machine := (← get).machine
  if machine.isLate then leave (.shell (.killed 9))
  if endlessTime < machine.clock then neverEnd run
  takeSignals run
  let tested : Setting := { tested := true }
  let inner : Setting := { setting with final := false }
  if (← get).isOn 'n' then return ()
  match c with
  | .simple line assignments words redirections =>
    runSimple start run setting line assignments words redirections
    takeSignals run
    checkFailure setting
  | .sequence cs => runSequence run setting cs
  | .negation c =>
    run tested c
    setStatus (if (← get).status = 0 then 1 else 0)
  | .both a b =>
    run tested a
    if (← get).status = 0 then run setting b
  | .either a b =>
    run tested a
    if (← get).status ≠ 0 then run setting b
  | .branch condition success failure =>
    run tested condition
    if (← get).status = 0 then run setting success
    else runAny run setting failure
  | .loop isUntil condition body =>
    let rounds := (← get).rounds
    inLoop (repeatWhile (neverEnd run) (run tested condition) (run inner body) isUntil rounds 0)
  | .each line name words body =>
    modify fun s => { s with line := line }
    let values ← words.flatMapM (fields (outputOf run))
    if values.isEmpty then setStatus 0
    else inLoop (repeatEach (fun v => do assign name v; run inner body) values)
  | .select line subject cases =>
    modify fun s => { s with line := line }
    let subject ← text (outputOf run) subject
    runCase run setting subject cases
  | .define name body =>
    modify fun s => { s with functions := Mapping.set name body s.functions }
    setStatus 0
  | .redirected line c redirections =>
    modify fun s => { s with line := line }
    let ready ← readyRedirections (outputOf run) redirections
    keepingDescriptors (ready.map (·.descriptor)) do
      if ← redirect (outputOf run) ready then run inner c else setStatus 2
  | .subshell line c redirections =>
    modify fun s => { s with line := line }
    let ready ← readyRedirections (outputOf run) redirections
    let body : Act Unit := do
      if ← redirect (outputOf run) ready then run { setting with final := true } c else leave .failure
    if setting.final && (← get).traps.all fun t => t.2.isEmpty then inPlace body
    noteEnding (← inShell run body)
    takeSignals run
    checkFailure setting
  | .pipeline cs =>
    let machine := (← get).machine
    let es ← runPipeline run machine.clock none cs
    dropStreams machine.streams.length
    es.forM fun e => noteEnding e.1
    takeSignals run
    checkFailure setting
  | .background line c =>
    modify fun s => { s with line := line }
    runBackground run c

/-- How commands are run whose depth has a bound; a shell that goes deeper runs out of memory. -/
def runWithin (start : Launcher) : Nat → Runner
  | 0 => fun _ _ => leave (.shell (.killed 11))
  | bound + 1 => runCommand start (runWithin start bound)

/-- How deep commands may lie inside each other. -/
def maxDepth : Nat := 12000

def runner (start : Launcher) : Runner := runWithin start maxDepth

end Act

end UnusedDeps.Shell
