import UnusedDeps.CommandLine.Run

/-!
# The program

The program reads the files that its options name, then the artifacts of the
records and the manifests of the packages, runs the command on them, and writes
what the command leaves behind. It starts no toolchain, so a run needs a saved
graph and a log of invocations.
-/

namespace UnusedDeps.Main

/-- The paths of the documents that the options name. -/
def documentPaths (arguments : List String) : List Path :=
  match CommandLine.read (CommandLine.dropSubcommand arguments) with
  | .error _ => []
  | .ok fields =>
    ["metadata_file", "invocations"].filterMap fun name =>
      match (Mapping.get? fields name).map CommandLine.pathOf with
      | some (.ok p) => some p
      | _ => none

/-- The paths of the manifests and the artifacts that the documents in files speak of. -/
def evidencePaths [Whereabouts] (files : FileTree) (documents : List Path) : List Path :=
  documents.flatMap fun p =>
    let manifests := match (Graph.ofFile files p).result with
      | .ok g => g.packages.map (·.manifestPath)
      | .error _ => []
    let artifacts := match CompileUnit.ofLog files p with
      | .ok units => units.filterMap fun u =>
        (InvocationRecord.ofArguments u.package u.args u.customBuild
          >>= InvocationRecord.artifactPath).toOption
      | .error _ => []
    manifests ++ artifacts

/-- The files with those at some paths. -/
def load (files : FileTree) (paths : List Path) : IO FileTree :=
  paths.foldlM (fun files p => do
    try
      let bytes ← IO.FS.readBinFile (Text.toPlain p.text)
      return files.add p (.file bytes false)
    catch e =>
      match e with
      | .inappropriateType .. => return files.add p .directory
      | _ => return files) files

/-- The variables of the process that the command reads. -/
def environment : IO Environment := do
  let pairs ← ["HOME", "PATH", "CARGO"].mapM fun name => do
    return (← IO.getEnv name).map fun value => (name, Text.ofPlain value)
  return pairs.filterMap id

/-- The table of the host with a line for each account. -/
def accountTable : String := "/etc/passwd"

/-- The accounts of a table with their home directories. -/
def accountsOf (table : String) : List (String × String) :=
  (Text.splitOnChar '\n' table).filterMap fun line =>
    match Text.splitOnChar ':' line with
    | name :: _ :: _ :: _ :: _ :: home :: _ => some (name, home)
    | _ => none

/-- Where the process finds itself; a host without a table has no account. -/
def whereabouts : IO Whereabouts := do
  let table ← try IO.FS.readFile accountTable catch _ => pure ""
  let directory := (← IO.currentDir).toString
  if sound : Path.nameFault? (Text.ofPlain directory) = none then
    return ⟨directory, sound, accountsOf (Text.ofPlain table)⟩
  else throw (.userError "the working directory has no name")

def noToolchain : Toolchain where
  executable := .error (.missingTool ToolName.cargo.text ToolName.cargo.text)
  answer := fun _ => .missing ToolName.cargo.text ToolName.cargo.text
  spoolDirectory := Path.ofText "spool"

/-- The exit code of a run that no problem explains. -/
def faultExitCode : UInt32 := 70

/-- Runs the command with arguments and gives its exit code. -/
def run [Whereabouts] (arguments : List String) : IO UInt32 := do
  let arguments := arguments.map Text.ofPlain
  let documents := documentPaths arguments
  let files ← load .empty documents
  let files ← load files (evidencePaths files documents)
  let outcome := CommandLine.run ⟨files, ← environment, noToolchain, none⟩ arguments
  (← IO.getStdout).putStr (Text.toPlain outcome.stdout)
  (← IO.getStderr).putStr (Text.toPlain outcome.stderr)
  match outcome.exit with
  | .ok code => return code.toUInt32
  | .error _ =>
    (← IO.getStderr).putStr "error: the input cannot be used\n"
    return faultExitCode

end UnusedDeps.Main

def main (arguments : List String) : IO UInt32 := do
  let _place ← UnusedDeps.Main.whereabouts
  UnusedDeps.Main.run arguments
