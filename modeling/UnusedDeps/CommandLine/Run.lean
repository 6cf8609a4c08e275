import UnusedDeps.Analysis
import UnusedDeps.Cargo.Build
import UnusedDeps.CommandLine.Arguments
import UnusedDeps.Ignore.Manifest
import UnusedDeps.Invocation.Log
import UnusedDeps.Options.Read
import UnusedDeps.Report.Json

/-!
# The command

The command reads its options, gets the graph from a file or from the toolchain,
gets the records from a log or from a build, and writes the report of the
analysis. A problem is told in one line and ends the command with a code of its
own; log lines go to the standard error from a level on.
-/

namespace UnusedDeps.CommandLine

variable [Whereabouts]

/-! ### Options -/

def programName : String := "cargo udeps"

def programVersion : String := "0.1.0"

/-- The word that may stand in front of the options. -/
def subcommand : String := "udeps"

/-- The arguments without the word in front of them. -/
def dropSubcommand : List String → List String
  | [] => []
  | a :: rest => if a = subcommand then rest else a :: rest

def helpLine (o : CliOption) : String :=
  "  " ++ String.intercalate ", " o.names ++ (if o.takesValue then " VALUE" else "") ++ "\n      "
    ++ o.help ++ "\n"

def helpText : String :=
  "Find unused dependencies in Cargo.toml\n\noptions:\n"
    ++ String.join (CliOption.all.map helpLine)

/-- The truth of a field that is an option without a value. -/
def isSet (fields : Fields) (name : String) : Bool :=
  ((Mapping.get? fields name).map Value.isTruthy).getD false

/-- The number of times that the report was asked to be verbose. -/
def verbosity (fields : Fields) : Nat :=
  match Mapping.get? fields "verbose" with
  | some (.int n) => n.toNat
  | _ => 0

def featureWords (fields : Fields) : Except Fault (List Value) :=
  match Mapping.get? fields "features" with
  | some (.list groups) => do
    let words ← groups.mapM fun
      | .text s => .ok (Text.words s)
      | _ => .error .wrongType
    return words.flatten.map .text
  | _ => .ok []

/-- What a person is told about a value that does not fit an option. -/
def explanation (f : SchemaFault) : String :=
  match f.kind with
  | .refused reason => reason
  | _ => "Input should be a valid string"

/-- The options of a run that the fields of a command line give. -/
def runOptions (home : Option String) (fields : Fields) : Except Fault RunOptions := do
  let features ← featureWords fields
  match Mapping.get? fields "output" with
  | some (.list _) => .error .badValue
  | _ => .ok ()
  let workspace := isSet fields "workspace" || isSet fields "all"
  let table := Mapping.set "workspace" (.bool workspace)
    (Mapping.set "features" (.list features) fields)
  match RunOptions.ofFields home table with
  | .error (.schema faults) => .error (.problem (.invalidOption (faults.map explanation)))
  | result => result

/-- The path that a field holds. -/
def pathOf : Value → Except Fault Path
  | .text s => .ok (Path.ofText s)
  | _ => .error .wrongType

/-! ### Running -/

def logger : String := "udeps.cli"

/-- The warnings about verbose output. -/
def verboseWarnings : List String :=
  ["currently verbose command informations (\"Running `..`\") are not correct.",
    "for example, `cargo-udeps` does these modifications:",
    "- changes `$CARGO` to the value given from `cargo`",
    "- sets `$RUST_SAVE_ANALYSIS_CONFIG` (for crates on the local filesystem)",
    "- adds `-Z save-analysis` (〃)"]

/-- What the command runs with. -/
structure Surroundings where
  files : FileTree
  /-- The variables of the process. -/
  env : Environment
  toolchain : Toolchain
  /-- The compiler wrapper, when it is not looked for in the directories of `PATH`. -/
  wrapper : Option String

/-- The graph, from the file of a field or from the toolchain. -/
def graphOf (s : Surroundings) (setup : BuildSetup) (fields : Fields) : Driven Graph :=
  match Mapping.get? fields "metadata_file" with
  | some v => .ofLogged (do Graph.ofFile s.files (← .ofExcept (pathOf v)))
  | none => setup.resolve

/-- The records of the log in a file. -/
def replayed (s : Surroundings) (options : RunOptions) (v : Value) :
    Logged (List InvocationRecord) := do
  let units ← .ofExcept (CompileUnit.ofLog s.files (← .ofExcept (pathOf v)))
  let jobs ← .ofExcept options.jobCount
  let (records, _) ← (Recorder.fresh none).replay units jobs
  return records

/-- The records, from the log of a field or from a build. -/
def recordsOf (s : Surroundings) (setup : BuildSetup) (fields : Fields) (g : Graph) :
    Driven (List InvocationRecord) :=
  match Mapping.get? fields "invocations" with
  | some v => .ofLogged (replayed s setup.options v)
  | none => do
    let exe ← .ofLogged setup.cargoExe
    (setup.build g (Recorder.fresh (some exe))).records

/-- The run with the fields of a command line: the form of the report and the analysis. -/
def analysisOf (s : Surroundings) (fields : Fields) : Driven (OutputKind × AnalysisResult) := do
  let options ← .ofExcept (runOptions (Mapping.get? s.env "HOME") fields)
  if 0 < options.verbose then
    .ofLogged ⟨verboseWarnings.map fun t => ⟨.warning, logger, t⟩, .ok ()⟩
  let setup : BuildSetup := ⟨options, s.toolchain, s.env, s.files, s.wrapper⟩
  let g ← graphOf s setup fields
  let records ← recordsOf s setup fields g
  let a ← .ofLogged
    (Analysis.run g records options (UsageArtifact.load s.files) (IgnoreTable.load s.files))
  return (options.output, a)

/-! ### What is written -/

/-- What the command leaves behind. -/
structure Outcome where
  exit : Except Fault Nat
  stdout : String
  stderr : String
  calls : List CargoCall

def shownLevel (fields : Fields) : LogLevel :=
  if isSet fields "quiet" then .error
  else
    match verbosity fields with
    | 0 => .warning
    | 1 => .info
    | _ => .debug

def lineText (l : LogLine) : String :=
  "[" ++ l.level.text ++ "] " ++ l.logger ++ ": " ++ l.text ++ "\n"

def shownLines (level : LogLevel) (lines : List LogLine) : String :=
  String.join ((lines.filter fun l => level.rank ≤ l.level.rank).map lineText)

def problemLines (fields : Fields) (p : Problem) : List LogLine :=
  if 0 < verbosity fields then [⟨.error, logger, p.toDetail.logText⟩] else []

/-- What is left behind by a run with the fields of a command line. -/
def outcomeOf (s : Surroundings) (fields : Fields) : Outcome :=
  let d := analysisOf s fields
  let level := shownLevel fields
  let lines := d.outcome.lines
  match d.outcome.result with
  | .ok (output, a) =>
    match Report.write a.outcome output with
    | .ok report => ⟨.ok a.exitCode, report, shownLines level lines, d.calls⟩
    | .error f => ⟨.error f, "", shownLines level lines, d.calls⟩
  | .error (.problem p) =>
    ⟨.ok problemExitCode, "",
      shownLines level (lines ++ problemLines fields p) ++ "error: " ++ p.message ++ "\n", d.calls⟩
  | .error f => ⟨.error f, "", shownLines level lines, d.calls⟩

/-- What is left behind when the reading of the command line stops. -/
def stopped : Stop → Outcome
  | .help => ⟨.ok 0, helpText, "", []⟩
  | .version => ⟨.ok 0, programName ++ " " ++ programVersion ++ "\n", "", []⟩
  | .refused f => ⟨.ok problemExitCode, "", programName ++ ": error: " ++ f.message ++ "\n", []⟩

def run (s : Surroundings) (arguments : List String) : Outcome :=
  match read (dropSubcommand arguments) with
  | .error stop => stopped stop
  | .ok fields => outcomeOf s fields

end UnusedDeps.CommandLine
