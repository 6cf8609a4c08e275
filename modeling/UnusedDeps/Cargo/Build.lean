import UnusedDeps.Cargo.Toolchain
import UnusedDeps.Invocation.Recorder
import UnusedDeps.Options.Run
import UnusedDeps.Toolchain.Run

/-!
# Builds

A run resolves the workspace, cleans the packages whose units must be compiled
again, and builds with the compiler wrapper in place of the compiler. The records
that the wrapper left in the spool directory are handed to a recorder, file by
file in the order of their names.
-/

namespace UnusedDeps

variable [Whereabouts]

/-- What a run has for its builds. -/
structure BuildSetup where
  options : RunOptions
  toolchain : Toolchain
  /-- The variables of the process. -/
  env : Environment
  files : FileTree
  /-- The compiler wrapper, when it is not looked for in the directories of `PATH`. -/
  wrapper : Option String

namespace BuildSetup

def logger : String := "udeps.ingestion.cargo_driver"

def wrapperName : String := "udeps-rustc-wrapper"

/-! ### Resolution -/

/-- A command that must succeed. -/
def succeed (s : BuildSetup) (stage : CargoStage) (args : List String) : Driven ToolResult := do
  let (result, _) ← Driven.command s.toolchain ⟨args, [], []⟩
  if result.code = 0 then return result else .failWith (.failedCommand stage result)

/-- The executable that compiled units receive as `CARGO`: the value of that variable, or the
executable of the toolchain with a warning. -/
def cargoExe (s : BuildSetup) : Logged String :=
  match s.env.nonempty? "CARGO" with
  | some exe => .answer exe
  | none =>
    match s.toolchain.executable with
    | .error (.missingTool tool configured) => .failWith (.missingTool tool configured)
    | .error f => .fail f
    | .ok exe => do
      .log .warning logger
        ("Couldn't find $CARGO environment variable. Setting it to " ++ exe)
      .log .warning logger
        "`cargo-udeps` currently does not support basic Cargo commands such as `build`"
      return exe

def resolve (s : BuildSetup) : Driven Graph := do
  let result ← s.succeed .resolution s.options.metadataArgs
  let v ← .ofExcept (valueOfJson result.stdout .notJson)
  .ofLogged (Graph.ofValue v)

/-! ### Cleaning -/

/-- The packages whose units must be compiled again, in the order of their identities. -/
def forcedPackages (index : PackagesIndex) : Except Fault (List PackageId) := do
  let forced ← (index.map (·.2)).filterMapM fun id => do
    return if ← Recorder.forcesRebuild id then some id else none
  orWrongType (sortByKeys? PackageId.keys? forced)

def argumentName (id : PackageId) : Except Fault String :=
  match id.name with
  | .text name => .ok name
  | _ => .error .wrongType

/-- The names of the packages whose units must be compiled again, each once and in order. -/
def forcedNames (index : PackagesIndex) : Except Fault (List String) := do
  return Text.sorted (← (← forcedPackages index).mapM argumentName)

/-- The step that makes sure that units are compiled again. -/
def forceRebuild (s : BuildSetup) (names : List String) : Driven Unit := do
  if names.isEmpty then
    return ()
  .ofLogged (.log .debug logger
    ("Forcing rebuild of local packages: " ++ String.intercalate ", " names))
  let _ ← s.succeed .cleaning (s.options.cleanArgs names)
  return ()

/-! ### Building -/

def wrapperPath? (s : BuildSetup) : Option String :=
  (s.wrapper.filter (· ≠ "")).orElse fun _ =>
    findProgram? s.files (Mapping.get? s.env "PATH") wrapperName

/-- The variables of the build command. -/
def checkEnv (s : BuildSetup) (wrapper : String) (cargoExe : Option String) : Environment :=
  [("RUSTC_WRAPPER", wrapper), (Spool.directoryVariable, s.toolchain.spoolDirectory.text),
    ("RUSTC_BOOTSTRAP", "1")]
    ++ (cargoExe.map fun exe => (Spool.executableVariable, exe)).toList

/-- The build command of a recorder for the packages of an index. -/
def checkCall (s : BuildSetup) (wrapper : String) (cargoExe : Option String)
    (index : PackagesIndex) : Except Fault CargoCall := do
  return ⟨← s.options.checkArgs, s.checkEnv wrapper cargoExe, [(Spool.indexName, index.toText)]⟩

/-- The contents of the record files in a spool directory, by name. -/
def recordFiles (spool : SpoolFiles) : List ByteArray :=
  (sortByKey (fun f => Text.codes f.1) (spool.filter fun f => Spool.isRecordName f.1)).map (·.2)

/-- The step that builds with the wrapper and gives the contents of the record files. -/
def check (s : BuildSetup) (wrapper : String) (cargoExe : Option String)
    (index : PackagesIndex) : Driven (List ByteArray) := do
  let call ← .ofExcept (s.checkCall wrapper cargoExe index)
  let (result, spool) ← Driven.command s.toolchain call
  if result.stderr ≠ "" ∧ !s.options.quiet then
    .ofLogged (.log .info logger (Text.stripEnd result.stderr))
  if result.code = 0 then return recordFiles spool
  else .failWith (.failedCommand .checking result)

/-- The step up to the contents of the record files. -/
def spooledFiles (s : BuildSetup) (g : Graph) (cargoExe : Option String) :
    Driven (List ByteArray) :=
  match s.wrapperPath? with
  | none => .failWith (.missingWrapper wrapperName)
  | some wrapper => do
    let index ← .ofExcept (PackagesIndex.ofGraph g)
    s.forceRebuild (← .ofExcept (forcedNames index))
    s.check wrapper cargoExe index

/-- The recorder after the records in files are appended one by one, and the fault of the first file
that holds none; the records before it stay appended. -/
def appendFiles (r : Recorder) : List ByteArray → Recorder × Except Fault Unit
  | [] => (r, .ok ())
  | bytes :: rest =>
    match Spool.readRecord bytes with
    | .error f => (r, .error f)
    | .ok record => appendFiles (r.append record) rest

/-- What a build leaves behind. -/
structure Built where
  /-- The records that the recorder held at the end. -/
  records : Driven (List InvocationRecord)
  recorder : Recorder

def build (s : BuildSetup) (g : Graph) (r : Recorder) : Built :=
  let spooled := s.spooledFiles g r.cargoExe
  match spooled.outcome.result with
  | .error f => ⟨⟨spooled.calls, ⟨spooled.outcome.lines, .error f⟩⟩, r⟩
  | .ok files =>
    let (after, ended) := appendFiles r files
    match ended with
    | .error f => ⟨⟨spooled.calls, ⟨spooled.outcome.lines, .error f⟩⟩, after⟩
    | .ok () =>
      let (records, after) := after.drain
      ⟨⟨spooled.calls, ⟨spooled.outcome.lines, .ok records⟩⟩, after⟩

end BuildSetup

end UnusedDeps
