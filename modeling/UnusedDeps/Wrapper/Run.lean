import UnusedDeps.Invocation.Recorder
import UnusedDeps.Toolchain.Run
import UnusedDeps.Wrapper.Context

/-!
# The compiler wrapper

The wrapper runs in place of the compiler. It announces the unit to a recorder,
leaves the record of a local unit in the spool directory, and runs the compiler
with what the recorder decided. Outside a build, and for units that only probe
the compiler, it runs the compiler as it was asked to.
-/

namespace UnusedDeps

variable [Whereabouts]

namespace Wrapper

/-- The crate name of units that probe the compiler. -/
def probeName : String := "___"

/-- What the crate names of build scripts start with. -/
def buildScriptStart : String := "build_script_"

def logger : String := "udeps.wrapper"

/-- The crate name of a unit: the argument after the first `--crate-name`. -/
def crateName? : List Value → Option Value
  | flag :: value :: rest =>
    if flag = .text "--crate-name" then some value else crateName? (value :: rest)
  | _ => none

/-- How the compiler is called. -/
structure CompilerCall where
  args : List Value
  /-- The variables that are set on top of those of the wrapper. -/
  env : Environment
  deriving DecidableEq, Repr

/-- What the wrapper does before it calls the compiler. -/
structure Plan where
  /-- The records that are left in the spool directory. -/
  records : List InvocationRecord
  call : CompilerCall
  deriving DecidableEq

/-- The plan that leaves a call as it is. -/
def Plan.transparent (args : List Value) : Plan := ⟨[], ⟨args, []⟩⟩

/-- Whether a crate name is that of a build script; null and the values that count as false are
not. -/
def isBuildScript (name : Value) : Except Fault Bool :=
  match name with
  | .text s => .ok (buildScriptStart.toList.isPrefixOf s.toList)
  | v => if v.isTruthy then .error .wrongType else .ok false

/-- The unit that is recorded, when there is one. -/
def unit? (context : Option WrapperContext) (args : List Value) (env : Environment) :
    Except Fault (Option (WrapperContext × CompileUnit)) :=
  match context with
  | none => .ok none
  | some c => do
    match ← c.package? env, (crateName? args).filter (· ≠ .null) with
    | some package, some name =>
      let _ ← orWrongType name.key?
      if name = .text probeName then return none
      let u ← CompileUnit.ofPackage package args (.bool (← isBuildScript name))
      return some (c, u)
    | _, _ => return none

/-- The plan for a call of the compiler. -/
def plan (context : Option WrapperContext) (args : List Value) (env : Environment) :
    Logged Plan := do
  match ← .ofExcept (unit? context args env) with
  | none => return .transparent args
  | some (c, u) => do
    let (decision, recorder) ← (Recorder.fresh c.cargoExe).observe u
    return ⟨recorder.drain.1, ⟨decision.apply args, decision.env⟩⟩

/-- What a run of the wrapper did. -/
structure Run where
  /-- The calls of the compiler: none or one. -/
  calls : List CompilerCall
  /-- The records left in the spool directory. -/
  spooled : List InvocationRecord
  files : FileTree
  outcome : Logged ToolResult

def spool (files : FileTree) (directory : Path) (name : String) (r : InvocationRecord) :
    Except Fault FileTree :=
  let p := directory.child (name ++ Spool.recordEnd)
  match p.fault?, files.write p (Spool.recordBytes r) with
  | some f, _ => .error (.ofName f)
  | none, .ok t => .ok t
  | none, .error f => .error (.file f p)

/-- The files after the records of a plan are left in the spool directory. -/
def spoolAll (files : FileTree) (context : Option WrapperContext) (name : String) (p : Plan) :
    Except Fault FileTree :=
  match context with
  | none => .ok files
  | some c => p.records.foldlM (fun files r => spool files c.spoolDirectory name r) files

/-- A run of the wrapper with the variables of its process. Record files are called `name`, and
`compile` is what the compiler answers. -/
def run (files : FileTree) (env : Environment) (name : String) (args : List Value)
    (compile : FileTree → CompilerCall → Logged ToolResult) : Run :=
  match WrapperContext.ofEnvironment files env with
  | .error f => ⟨[], [], files, .fail f⟩
  | .ok context =>
    let p := plan context args env
    match p.result with
    | .error f => ⟨[], [], files, ⟨p.lines, .error f⟩⟩
    | .ok plan =>
      match spoolAll files context name plan with
      | .error f => ⟨[], [], files, ⟨p.lines, .error f⟩⟩
      | .ok after =>
        let answer := compile after plan.call
        ⟨[plan.call], plan.records, after, ⟨p.lines ++ answer.lines, answer.result⟩⟩

/-! ### The command -/

/-- The exit code of a wrapper that could not do its work. -/
def failureExitCode : Int := 101

def usage : String := "usage: udeps-rustc-wrapper RUSTC [ARGS...]\n"

/-- What the wrapper command leaves behind. -/
structure Command where
  exit : Except Fault Int
  stdout : String
  stderr : String
  lines : List LogLine
  spooled : List InvocationRecord

/-- The compiler that the first argument of the wrapper names. -/
def compiler (env : Environment) (rustc : String) (files : FileTree) (call : CompilerCall) :
    Logged ToolResult :=
  let host : ToolHost := ⟨files, env, { rustc := rustc }, []⟩
  host.run {
    tool := .text ToolName.rustc.text
    args := call.args
    env := Environment.toFields call.env }

/-- The wrapper command with its arguments: the compiler and the arguments for it. A problem is
logged and told; other faults end the command. -/
def command (files : FileTree) (env : Environment) (name : String) : List String → Command
  | [] => ⟨.ok failureExitCode, "", usage, [], []⟩
  | rustc :: args =>
    let r := run files env name (args.map .text) (compiler env rustc)
    let lines := r.outcome.lines
    match r.outcome.result with
    | .ok t => ⟨.ok t.code, t.stdout, t.stderr, lines, r.spooled⟩
    | .error (.problem p) =>
      ⟨.ok failureExitCode, "", "error: " ++ p.message ++ "\n",
        lines ++ [⟨.error, logger, p.toDetail.logText⟩], r.spooled⟩
    | .error f => ⟨.error f, "", "", lines, r.spooled⟩

end Wrapper

end UnusedDeps
