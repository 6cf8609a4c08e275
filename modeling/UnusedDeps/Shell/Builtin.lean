import UnusedDeps.Shell.Condition
import UnusedDeps.Shell.Directory
import UnusedDeps.Shell.Input
import UnusedDeps.Shell.Printf
import UnusedDeps.Shell.Rights
import UnusedDeps.Shell.Search

/-!
# Commands of the shell

The commands that need no other process: they write, decide conditions, change
variables, options and the directory, leave loops, functions and the shell, and
describe what a name stands for.
-/

namespace UnusedDeps.Shell

variable [Whereabouts]

namespace Act

/-! ### Writing -/

/-- The command `printf`. -/
def runPrintf (args : List String) : Act Unit := do
  let (_, args) ← letters [] args
  match args with
  | [] => fail "usage: printf format [arg ...]"
  | format :: args =>
    let p := printf format args
    p.faults.forM fun f => complain f.message
    print p.bytes (if p.faults.isEmpty then 0 else 1)
    match p.halt with
    | some (.broken fault) => fail fault.message
    | _ => return ()

/-- The command `test`. -/
def runTest (words : List String) : Act Unit := do
  match (← get).holds words with
  | .ok holds => setStatus (if holds then 0 else 1)
  | .error reason => fail reason

/-- The command `[`, which ends with a bracket. -/
def runBracket (words : List String) : Act Unit :=
  if (words.getLast?.bind fun w => w.toList.head?) = some ']' then runTest words.dropLast
  else fail "missing ]"

/-! ### Variables -/

/-- Shows variables as a script can set them. -/
def listVariables (start : String) (shown : Variable → Bool) : Act Unit := do
  let s ← get
  let chosen := sortByKey (·.1) (s.bindings.filter fun v => shown v.2)
  let line (v : String × Variable) : String :=
    let value := match v.2.value with
      | some t => "=" ++ singleQuoted t
      | none => ""
    start ++ v.1 ++ value ++ "\n"
  print (Text.toBytes (String.join (chosen.map line))) 0

/-- Sets the variables of arguments and changes what they are. -/
def declare (change : Variable → Variable) (args : List String) : Act Unit := do
  args.forM fun a => do
    match Text.cut '=' a.toList with
    | (name, some value) =>
      let name := String.ofList name
      assignNamed name (String.ofList value)
      mark name change
    | (_, none) => if isName a then mark a change else fail (a ++ ": bad variable name")
  setStatus 0

/-- The commands `export` and `readonly`. -/
def runDeclare (name : String) (shown : Variable → Bool) (change : Variable → Variable)
    (args : List String) : Act Unit := do
  let (options, args) ← letters ['p'] args
  if options.contains 'p' || args.isEmpty then listVariables (name ++ " ") shown
  else declare change args

/-- The command `local`. -/
def runLocal (args : List String) : Act Unit := do
  if (← get).calls = 0 then fail "not in a function"
  args.forM fun a => do
    match Text.cut '=' a.toList with
    | (name, some value) =>
      let name := String.ofList name
      if !isName name then fail (name ++ ": bad variable name")
      hide name
      assign name (String.ofList value)
    | (_, none) =>
      if a = "-" then hideOptions
      else if isName a then hide a
      else fail (a ++ ": bad variable name")
  setStatus 0

/-- The command `unset`. -/
def runUnset (args : List String) : Act Unit := do
  let (options, names) ← letters ['f', 'v'] args
  names.forM fun n => do
    if options.getLast? = some 'f' then
      modify fun s => { s with functions := s.functions.filter fun f => f.1 ≠ n }
    else if isName n then unset n
    else fail (n ++ ": bad variable name")
  setStatus 0

/-- The command `set`. -/
def runSet (args : List String) : Act Unit := do
  if args.isEmpty then listVariables "" fun v => v.value.isSome
  else
    let rest ← turnOptions args
    refuseJobControl
    match rest with
    | some args => modify fun s => { s with args := args, optionIndex := 1, optionOffset := none }
    | none => pure ()
    setStatus 0

/-- The command `shift`. -/
def runShift (args : List String) : Act Unit := do
  let n ← match args with
    | [] => pure 1
    | w :: _ => natural w
  let s ← get
  if s.args.length < n then fail "can't shift that many"
  else set { s with args := s.args.drop n, optionIndex := 1, optionOffset := none, status := 0 }

/-- The command `getopts`. -/
def runGetopts (args : List String) : Act Unit := do
  let (_, args) ← letters [] args
  let own := (← get).args
  match args with
  | known :: name :: args => getOption known name (if args.isEmpty then own else args)
  | _ => fail "Usage: getopts optstring var [arg...]"

/-- The command `alias`. -/
def runAlias (args : List String) : Act Unit := do
  let line (a : String × String) : List UInt8 :=
    Text.toBytes (a.1 ++ "=" ++ singleQuoted a.2 ++ "\n")
  setStatus 0
  let s ← get
  if args.isEmpty then print ((inTable Session.tablePlaces (·.1) s.aliases).flatMap line) 0
  else
    args.forM fun a => do
      match Text.cut '=' a.toList with
      | (name, some value) =>
        modify fun s =>
          { s with
            aliases := Mapping.set (String.ofList name) (String.ofList value) s.aliases }
      | (_, none) =>
        match Mapping.get? (← get).aliases a with
        | some value => print (line (a, value)) (← get).status
        | none =>
          writeError ("alias: " ++ a ++ " not found\n")
          setStatus 1

/-- The command `unalias`. -/
def runUnalias (args : List String) : Act Unit := do
  let (options, names) ← letters ['a'] args
  setStatus 0
  if options.contains 'a' then modify fun s => { s with aliases := [] }
  names.forM fun n => do
    if (Mapping.get? (← get).aliases n).isSome then
      modify fun s => { s with aliases := s.aliases.filter fun a => a.1 ≠ n }
    else
      writeError ("unalias: " ++ n ++ " not found\n")
      setStatus 1

/-! ### Leaving -/

/-- The commands `break` and `continue`; outside loops they do nothing. -/
def runBreak (again : Bool) (args : List String) : Act Unit := do
  let n ← match args with
    | [] => pure 1
    | w :: _ => do
      let n ← natural w
      if n = 0 then fail ("Illegal number: " ++ w) else pure n
  setStatus 0
  let levels := min n (← get).loops
  if 0 < levels then leave (.loop levels again)

/-- The command `return`. -/
def runReturn (args : List String) : Act Unit := do
  match args with
  | [] => pure ()
  | w :: _ => setStatus (← natural w)
  leave .function

/-- The command `exit`. -/
def runExit (args : List String) : Act Unit := do
  let n ← match args with
    | [] => pure (← get).status
    | w :: _ => natural w
  setStatus n
  leave (.shell (.exited (n % 256)))

/-! ### The table -/

/-- The action of a command of the shell; `none` for those that run other commands. -/
def builtin? (name : String) : Option (List String → Act Unit) :=
  match name with
  | ":" => some fun _ => setStatus 0
  | "true" => some fun _ => setStatus 0
  | "false" => some fun _ => setStatus 1
  | "echo" => some fun args => print (Shell.echo args) 0
  | "printf" => some runPrintf
  | "test" => some runTest
  | "[" => some runBracket
  | "export" =>
    some (runDeclare name Variable.exported fun v => { v with exported := true })
  | "readonly" =>
    some (runDeclare name Variable.readOnly fun v => { v with readOnly := true })
  | "local" => some runLocal
  | "unset" => some runUnset
  | "set" => some runSet
  | "shift" => some runShift
  | "getopts" => some runGetopts
  | "read" => some readLine
  | "alias" => some runAlias
  | "unalias" => some runUnalias
  | "break" => some (runBreak false)
  | "continue" => some (runBreak true)
  | "return" => some runReturn
  | "exit" => some runExit
  | "cd" => some runChange
  | "chdir" => some runChange
  | "pwd" => some runDirectory
  | "umask" => some runMask
  | "ulimit" => some runLimit
  | "kill" => some runKill
  | "trap" => some runTrap
  | "wait" => some runWait
  | "type" => some (describe true none)
  | "times" =>
    some fun _ => print (Text.toBytes "0m0.000000s 0m0.000000s\n0m0.000000s 0m0.000000s\n") 0
  | "hash" => some runHash
  | "jobs" => some runJobs
  | "fg" => some runContinue
  | "bg" => some runContinue
  | _ => none

end Act

end UnusedDeps.Shell
