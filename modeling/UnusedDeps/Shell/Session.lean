import UnusedDeps.Host.FileKind
import UnusedDeps.Path.Home
import UnusedDeps.Shell.Script

/-!
# Shell sessions

A session is what a shell knows while it runs a script: its arguments, variables
and functions, its directory and descriptors, the processes it has left in the
background, and what all processes share. An action changes the session; it may
leave the loop, the function or the shell that it is a part of.
-/

namespace UnusedDeps.Shell

variable [Whereabouts]

/-- A variable, which may have no value. -/
structure Variable where
  value : Option String
  /-- Whether commands receive the variable. -/
  exported : Bool := false
  readOnly : Bool := false

/-- A process in the background, which has already run but ends at a time. -/
structure Job where
  number : Nat
  process : Nat
  /-- How many commands of a pipeline it is made of. -/
  parts : Nat
  ends : Nat
  ending : Ending
  noted : Bool := false
  /-- Whether the script has waited for it. -/
  awaited : Bool := false

/-- A program that was found in one of the directories in which programs are looked for. -/
structure Tracked where
  /-- How many directories come before that one. -/
  place : Nat
  /-- Whether the working directory has been changed since. -/
  stale : Bool := false
  deriving DecidableEq, Repr

/-- What is given back when a function ends: what its own variables were before, and the options of
the shell when they are its own, too. -/
structure Hidden where
  bindings : List (String × Option Variable) := []
  options : Option (List Char) := none

/-- The state of a shell. -/
structure Session where
  name : String
  args : List String
  bindings : Mapping String Variable
  functions : Mapping String Command
  aliases : Mapping String String
  /-- The programs that have been found, each under its name. -/
  found : Mapping String Tracked
  options : List Char
  /-- What is run when a signal comes; nothing is run for the empty text. -/
  traps : Mapping Nat String
  /-- The signals that did nothing to the shell from its start on. -/
  ignored : List Nat
  status : Nat
  /-- The status of the last command whose output was part of a word. -/
  outputStatus : Nat
  directory : Path
  directoryName : String
  descriptors : Mapping Nat Nat
  machine : Machine
  /-- The process of the shell, and the one that started it. -/
  process : Nat
  parent : Nat
  /-- The process of the shell that started the script. -/
  root : Nat
  /-- The jobs, the latest first. -/
  jobs : List Job
  background : Option Nat
  /-- The line of the command that runs. -/
  line : Nat
  /-- The command of the shell that runs. -/
  builtin : Option String
  /-- What that command has printed and the shell has not written yet. -/
  unwritten : List UInt8
  /-- How many loops and how many functions are around the command that runs. -/
  loops : Nat
  calls : Nat
  /-- How often a loop may run before it counts as one without end. -/
  rounds : Nat
  /-- What the functions around the command hide, the innermost first. -/
  hidden : List Hidden
  documents : List (Nat × Word)
  nextDocument : Nat
  /-- The rights that new files do not get. -/
  mask : Nat
  limits : Limits
  /-- The number of the argument whose options are read next. -/
  optionIndex : Nat
  /-- How many characters of the argument before that one have been read; `none` when there is
  nothing more to be read of it. -/
  optionOffset : Option Nat

/-- How an action leaves what it is a part of. -/
inductive Leave where
  /-- Out of loops, the last of which may go on with its next round. -/
  | loop (levels : Nat) (again : Bool)
  | function
  | shell (e : Ending)
  /-- A program takes the place of the shell, and has ended. -/
  | replaced (e : Ending)
  /-- After an error, about which the shell has complained. -/
  | failure
  deriving DecidableEq, Repr

abbrev Act := ExceptT Leave (StateM Session)

namespace Session

/-- The blanks at which fields are split unless the script says otherwise. -/
def defaultSeparators : String := " \t\n"

/-- The directories in which programs are looked for when the shell starts without any. -/
def defaultPath : String := "/usr/local/sbin:/usr/local/bin:/usr/sbin:/usr/bin:/sbin:/bin"

/-- The variables that every shell has. -/
def ownVariables : Mapping String Variable :=
  [("OPTIND", { value := some "1" }),
    ("PS4", { value := some "+ " }),
    ("PS2", { value := some "> " }),
    ("PS1", { value := some "# " }),
    ("PATH", { value := some defaultPath }),
    ("MAILPATH", { value := none }),
    ("MAIL", { value := none }),
    ("IFS", { value := some defaultSeparators })]

/-- What a shell calls the directory in which it starts: what it is told, if that is true. -/
def firstDirectoryName (l : Launch) : String :=
  let own := Text.bytewise l.directory.resolve.text
  match Mapping.get? l.env "PWD" with
  | some told =>
    let isAnchored := told.toList.head? = some '/'
    let place (p : Path) : Option Place := (l.machine.files.locate p).toOption
    let toldPlace := place (l.path told)
    if isAnchored && toldPlace.isSome && toldPlace = place l.directory then told else own
  | none => own

/-- The variables that a shell starts with. Some of those that it receives keep their places but not
their values. -/
def firstVariables (l : Launch) : Mapping String Variable :=
  let received := (l.env.filter fun v => isName v.1).foldl (fun vs v =>
    Mapping.set v.1 ⟨some v.2, true, false⟩ vs) ownVariables
  let again (name value : String) (vs : Mapping String Variable) : Mapping String Variable :=
    let old := (Mapping.get? vs name).getD { value := none }
    Mapping.set name { old with value := some value } vs
  Mapping.set "PWD" ⟨some (firstDirectoryName l), true, false⟩
    (again "PPID" (toString l.parent) (again "OPTIND" "1" (again "IFS" defaultSeparators received)))

/-- How often a loop may run. -/
def maxRounds : Nat := 30000000

/-- How often a loop may run in the background. -/
def maxBackgroundRounds : Nat := 200000

/-- The session in which a process is about to run a script. -/
def ofLaunch (l : Launch) (name : String) (args : List String) : Session where
  name := name
  args := args
  bindings := firstVariables l
  functions := []
  aliases := []
  found := []
  options := []
  traps := []
  ignored := l.ignored
  status := 0
  outputStatus := 0
  directory := l.directory
  directoryName := firstDirectoryName l
  descriptors := l.descriptors
  machine := l.machine
  process := l.process
  parent := l.parent
  root := l.process
  jobs := []
  background := none
  line := 0
  builtin := none
  unwritten := []
  loops := 0
  calls := 0
  rounds := maxRounds
  hidden := []
  documents := []
  nextDocument := 0
  mask := 0o22
  limits := l.limits
  optionIndex := 1
  optionOffset := none

def value? (s : Session) (name : String) : Option String :=
  (Mapping.get? s.bindings name).bind Variable.value

/-- How many places the tables of variables and of aliases have. -/
def tablePlaces : Nat := 39

/-- The variables that commands receive, in the order of the table of variables. -/
def exports (s : Session) : Environment :=
  (inTable tablePlaces (·.1) s.bindings).filterMap fun v =>
    if v.2.exported then v.2.value.map fun value => (v.1, value) else none

/-- What is done about a signal, nothing when it is the empty text; `none` when that is what is
usual. -/
def action? (s : Session) (signal : Nat) : Option String :=
  if s.ignored.contains signal then some "" else Mapping.get? s.traps signal

def isOn (s : Session) (option : Char) : Bool := s.options.contains option

/-- The characters at which fields are split. -/
def separators (s : Session) : List Char :=
  ((s.value? "IFS").getD defaultSeparators).toList

/-- The session as one that looks at files. -/
def viewer (s : Session) : Host.Viewer := ⟨s.machine, s.descriptors, s.directory⟩

/-- The path that a text means to the shell. -/
def path (s : Session) (text : String) : Path := s.viewer.path text

/-- What stands at the path that a text means. -/
def nodeAt (s : Session) (text : String) : Except FileFault FileNode := s.viewer.nodeAt text

end Session

namespace Act

/-- Leaves what the action is a part of. -/
def leave {α : Type} (l : Leave) : Act α := throw l

def spend (time : Nat) : Act Unit := modify fun s => { s with machine := s.machine.pass time }

def setStatus (n : Nat) : Act Unit := modify fun s => { s with status := n }

/-- Writes bytes to a descriptor, and tells whether that could be done. A signal that comes when it
could not ends the shell, unless the script says what is done then. -/
def write (descriptor : Nat) (bytes : List UInt8) : Act Bool := do
  let s ← get
  match Mapping.get? s.descriptors descriptor with
  | none => return false
  | some n =>
    let (m, fault) := s.machine.write s.process n s.limits.fileBytes? bytes
    set { s with machine := m }
    match fault.bind WriteFault.signal? with
    | none => return fault.isNone
    | some g =>
      match s.action? g with
      | none => leave (.shell (.killed g))
      | some action =>
        if !action.isEmpty then
          let sent : SentSignal := ⟨m.clock, s.process, g⟩
          set { s with machine := { m with signals := m.signals ++ [sent] } }
        return false

/-- Prints the output of a command of the shell, which is written when the command ends, and sets the
status. -/
def print (bytes : List UInt8) (status : Nat) : Act Unit :=
  modify fun s => { s with unwritten := s.unwritten ++ bytes, status := status }

/-- Writes what has been printed, and tells whether that could be done. -/
def writePrinted : Act Bool := do
  let bytes := (← get).unwritten
  modify fun s => { s with unwritten := [] }
  if bytes.isEmpty then return true else write 1 bytes

def writeError (text : String) : Act Unit := do
  let _ ← write 2 (Text.toBytes text)

/-- Complains about the command that runs. -/
def complain (text : String) : Act Unit := do
  let s ← get
  let builtin := match s.builtin with
    | some name => name ++ ": "
    | none => ""
  writeError (s.name ++ ": " ++ toString s.line ++ ": " ++ builtin ++ text ++ "\n")

/-- Complains, and leaves what the error ends. -/
def fail {α : Type} (text : String) : Act α := do
  complain text
  leave .failure

/-- An action and how it left, if it did. -/
def attempt (action : Act Unit) : Act (Option Leave) :=
  tryCatch (do action; return none) fun l => return some l

/-- Leaves if something has left. -/
def leaveAgain : Option Leave → Act Unit
  | some l => leave l
  | none => return ()

/-- An action and, however it ends, another one after it. -/
def andFinally (action after : Act Unit) : Act Unit := do
  let left ← attempt action
  after
  leaveAgain left

end Act

end UnusedDeps.Shell
