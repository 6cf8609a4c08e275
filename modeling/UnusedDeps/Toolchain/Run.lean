import UnusedDeps.Host.Programs

/-!
# Running tools

A tool is run by the program that is configured for it: a file, or a name that is
looked for in the directories of `PATH`. The tool receives the variables of the
process with others on top of them, and it is stopped when it takes too long.
-/

namespace UnusedDeps

variable [Whereabouts]

def FileTree.isProgram (t : FileTree) (p : Path) : Bool :=
  match t.lookup p with
  | .ok (.program _) => true
  | .ok (.file _ executable) => executable
  | _ => false

/-- The file that a name means in a directory. -/
def joined (directory name : String) : String :=
  if directory.isEmpty || directory.toList.getLast? = some '/' then directory ++ name
  else directory ++ "/" ++ name

/-- The file of a program that is looked for in directories; `none` when there is none. -/
def findProgram? (files : FileTree) (search : Option String) (name : String) : Option String :=
  let isProgram (s : String) : Bool :=
    files.isProgram (Path.ofText s) && (Path.ofText s).fault?.isNone
  if name.toList.contains '/' then if isProgram name then some name else none
  else
    let search := search.getD defaultSearch
    if search.isEmpty || name.isEmpty then none
    else ((Text.splitOnChar ':' search).map fun d => joined d name).find? isProgram

/-- What tools are run with. -/
structure ToolHost where
  files : FileTree
  /-- The variables of the process. -/
  env : Environment
  config : ToolsConfig
  /-- The variables that every tool receives on top of those of the process. -/
  toolEnv : Fields

/-- What a tool is asked to do. -/
structure ToolRequest where
  tool : Value
  args : List Value
  env : Fields := []
  directory : Option Path := none
  /-- The seconds that the tool may take; null stands for those of the configuration. -/
  timeout : Value := .null

namespace ToolHost

def logger : String := "udeps.ingestion.tool_runner"

def toolOf (name : Value) : Except Fault ToolName :=
  match name with
  | .text s =>
    match ToolName.ofText? s with
    | some t => .ok t
    | none => .error (.unknownTool name)
  | _ => .error (.unknownTool name)

def resolve (h : ToolHost) (name : Value) : Except Fault String := do
  let tool ← toolOf name
  let configured := h.config.executable tool.text
  let p := Path.ofText configured
  match h.files.isFile p with
  | .error f => .error (.file f p)
  | .ok true => .ok p.text
  | .ok false =>
    match findProgram? h.files (Mapping.get? h.env "PATH") configured with
    | some s => .ok s
    | none => .error (.missingTool tool.text configured)

/-- The fault that ends the search for a program: the first one that is not about a missing file. -/
def searchFault (faults : List FileFault) : FileFault :=
  ((faults.find? fun f => f ≠ .missing && f ≠ .notDirectory).orElse fun _ => faults.getLast?).getD
    .missing

/-- Starts the first of several files that is a program, after the faults of others. -/
def startAfter (l : Launch) (faults : List FileFault) : List String → Except Fault Finished
  | [] => .error (.file (searchFault faults.reverse) (Path.ofText (Text.hostText l.name)))
  | file :: rest =>
    match Host.start (Text.bytewise file) l with
    | .ok f => .ok f
    | .error f => startAfter l (f :: faults) rest

/-- Starts the first of several files that is a program. -/
def startFirst (files : List String) (l : Launch) : Except Fault Finished := startAfter l [] files

/-- Checks that a text can be an argument or a variable of a process. -/
def checkName (s : String) : Except Fault Unit :=
  match Path.nameFault? s with
  | some f => .error (.ofName f)
  | none => .ok ()

/-- Checks that a variable can be one of a process; its name holds no equals sign. -/
def checkVariable (v : String × String) : Except Fault Unit := do
  if v.1.toList.contains '=' then throw .badValue
  checkName v.1
  checkName v.2

def firstProcess : Nat := 4096

/-- The process of a tool from its start to its end, which comes at a deadline at the latest. -/
def process (h : ToolHost) (executable : String) (args : List String) (env : Environment)
    (directory : Path) (deadline : Option Nat) : Except Fault Finished := do
  let env := Environment.overlay h.env env
  env.forM checkVariable
  (executable :: args).forM checkName
  checkName directory.text
  match h.files.lookup directory with
  | .error f => .error (.file f directory)
  | .ok .directory =>
    let search := (Mapping.get? env "PATH").getD defaultSearch
    let files := if executable.toList.contains '/' then [executable]
      else (Text.splitOnChar ':' search).map fun d => joined d executable
    startFirst files
      { name := Text.bytewise executable
        args := args.map Text.bytewise
        env := env.map fun v => (Text.bytewise v.1, Text.bytewise v.2)
        directory := directory
        descriptors := [(0, 0), (1, 1), (2, 2)]
        process := firstProcess
        parent := firstProcess - 1
        ignored := []
        limits := []
        machine := Machine.initial h.files firstProcess deadline }
  | .ok _ => .error (.file .notDirectory directory)

def stoppedText : String := "timed out"

def textsOf (vs : List Value) : Except Fault (List String) :=
  vs.mapM fun
    | .text s => .ok s
    | _ => .error .wrongType

/-- A limit in seconds; null is none. -/
def limitOf : Value → Except Fault (Option Binary64)
  | .null => .ok none
  | .bool b => .ok (some (Key.wide (if b then 1 else 0)))
  | .int n => .ok (some (Key.wide n))
  | .float x => .ok (some x)
  | _ => .error .wrongType

/-- The nanoseconds of a limit, which is not below zero; `none` when it is never reached. -/
def nanoseconds? : Binary64 → Option Nat
  | .finite negative m e =>
    let (n, d) := Binary64.asFraction negative m e
    some (n.toNat * tenPow 9 / d)
  | _ => none

/-- The answer of a tool; one that takes too long is stopped, which is a fault. When the tool itself
has ended in time and only processes it has left behind go on, its own code is kept, except that
zero becomes one. -/
def run (h : ToolHost) (r : ToolRequest) : Logged ToolResult := do
  let tool ← .ofExcept (toolOf r.tool)
  let executable ← .ofExcept (h.resolve r.tool)
  let args ← .ofExcept (textsOf r.args)
  .log .debug logger ("Running " ++ String.intercalate " " (executable :: args))
  let env ← .ofExcept (Environment.ofFields (Environment.overlay h.toolEnv r.env))
  let limit := (limitOf r.timeout).map fun own => own.orElse fun _ => h.config.timeout
  let deadline := limit.toOption.join.bind nanoseconds?
  let f ← .ofExcept (h.process executable args env (r.directory.getD (Path.ofText "")) deadline)
  let limit ← .ofExcept limit
  let isReached (time : Nat) : Bool := limit.any fun s => !s.isAbove time (tenPow 9)
  if isReached f.machine.ended then
    let code := if isReached f.machine.clock then (Ending.killed 9).code
      else if f.ending.code = 0 then 1 else f.ending.code
    .fail (.abortedTool ⟨tool.text, args, code, "", stoppedText⟩)
  else
    return ⟨tool.text, args, f.ending.code, Text.ofUtf8Lossy (f.machine.written 1),
      Text.ofUtf8Lossy (f.machine.written 2)⟩

end ToolHost

end UnusedDeps
