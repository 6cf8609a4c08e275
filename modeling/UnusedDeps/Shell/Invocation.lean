import UnusedDeps.Shell.Run

/-!
# Starting a shell

A shell is started with options and the script it runs: its first argument, a
file, or its input. What is behind the script are the name and the arguments that
the script sees.
-/

namespace UnusedDeps.Shell

variable [Whereabouts]

/-- Where a script comes from. -/
inductive ScriptSource where
  | text (script : String)
  | file (name : String)
  | input
  deriving DecidableEq, Repr

/-- What a shell is asked to do. -/
structure Invocation where
  source : ScriptSource
  /-- The name of the script, unless it is that of the shell. -/
  name : Option String
  args : List String

/-- What the arguments of a shell say of its options. -/
structure InvocationOptions where
  /-- Whether the first argument is the script. -/
  isText : Bool := false
  args : List String

namespace Act

/-- Turns on the options in front of the arguments of a shell. -/
def takeOptions : List String → InvocationOptions → Act InvocationOptions
  | [], o => return { o with args := [] }
  | a :: rest, o =>
    match a.toList with
    | ['-'] => return { o with args := rest }
    | ['-', '-'] => return { o with args := rest }
    | sign :: c :: cs => do
      if sign ≠ '-' && sign ≠ '+' then return { o with args := a :: rest }
      else
        (c :: cs).forM fun c => do
          if !(['c', 'l', 'o'].contains c) then turnLetter (sign = '-') c
        let o := if (c :: cs).contains 'c' then { o with isText := true } else o
        if (c :: cs).contains 'o' then
          match rest with
          | name :: rest =>
            turnNamed (sign = '-') name
            takeOptions rest o
          | [] =>
            listOptions (sign = '+')
            let _ ← writePrinted
            return { o with args := [] }
        else takeOptions rest o
    | _ => return { o with args := a :: rest }

/-- What the arguments of a shell ask for. -/
def invocation (args : List String) : Act Invocation := do
  let o ← takeOptions args ⟨false, []⟩
  if (← get).isOn 'i' then turn true 'm'
  refuseJobControl
  match o.isText, o.args with
  | true, [] => fail "-c requires an argument"
  | true, script :: rest => return ⟨.text script, rest.head?, rest.tail⟩
  | false, [] => return ⟨.input, none, []⟩
  | false, name :: rest =>
    if (← get).isOn 's' then return ⟨.input, none, name :: rest⟩
    else return ⟨.file name, some name, rest⟩

def scriptOf (i : Invocation) : Act String := do
  match i.source with
  | .text script => return script
  | .input =>
    let s ← get
    match (Mapping.get? s.descriptors 0).bind fun n =>
        (s.machine.unread? n).map fun bytes => (n, bytes) with
    | none => return ""
    | some (n, bytes) =>
      set { s with machine := s.machine.advance n bytes.length true }
      return Text.ofBytes bytes
  | .file name =>
    match ← scriptBytes name with
    | .ok bytes => return Text.ofBytes bytes
    | .error f => fail ("cannot open " ++ name ++ ": " ++ openingText "No such file" f)

/-- Checks the variables that a shell receives. -/
def checkReceived (env : Environment) : Act Unit :=
  match Mapping.get? env "OPTIND" with
  | some v => do let _ ← natural v
  | none => return ()

/-- Reads the arguments of a shell and runs its script. -/
def runInvocation (run : Runner) (env : Environment) (args : List String) : Act Unit := do
  checkReceived env
  let i ← invocation args
  let script ← scriptOf i
  modify fun s => { s with name := i.name.getD s.name, args := i.args }
  match i.source with
  | .text _ => let _ ← runText run {} 1 script
  | _ => let _ ← runFileText run {} script

end Act

/-- A shell from its start to its end. -/
def run (start : Launcher) (l : Launch) : Finished :=
  let runner := Act.runner start
  let session := Session.ofLaunch { l with
    machine := { l.machine with shells := l.process :: l.machine.shells } } l.name []
  let (result, after) := (Act.runToEnd runner (Act.runInvocation runner l.env l.args)).run.run session
  match result with
  | .ok e => ⟨e, after.machine⟩
  | .error _ => ⟨.exited 2, after.machine⟩

end UnusedDeps.Shell
