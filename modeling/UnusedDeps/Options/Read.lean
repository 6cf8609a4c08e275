import UnusedDeps.Logged
import UnusedDeps.Options.Run
import UnusedDeps.Path.Home
import UnusedDeps.Schema.Read

/-!
# Checking run options

Options come from a table or from the command line. The number of jobs must be
the text of an integer and is kept without the white space around it, the only
profile is `test`, and a path may start with `~`. A path of the wrong type or in
an unknown home ends the check at once; the other faults are collected in the
order of the options.
-/

namespace UnusedDeps.RunOptions

variable [Whereabouts]

/-! ### Rules -/

def knownProfiles : List String := ["test"]

def checkProfile (s : String) : Checked String :=
  if knownProfiles.contains s then .ok s
  else
    Checked.refuse ("unknown profile: `" ++ s ++ "`, only `test` is currently supported")

/-- A number of jobs without the white space around it. -/
def checkJobs (s : String) : Checked String :=
  match integer? s with
  | some _ => .ok (Text.strip s)
  | none =>
    Checked.refuse ("invalid value `" ++ s ++ "` for `--jobs`: must be an integer")

/-- A path with the home directory in place of a leading `~`. -/
def expandPath (home : Option String) (s : String) : Except Fault (Checked Path) :=
  match (Path.ofText s).expandHome home with
  | .ok p => .ok (.ok p)
  | .error (.badName reason) => .ok (Checked.refuse reason)
  | .error .unknownHome => .error .noHome

/-- The number of units that are replayed at once: at least one; null when it is not limited. Only
the text of an integer gives a number. -/
def jobCount (o : RunOptions) : Except Fault Value :=
  match o.jobs with
  | none => .ok .null
  | some s =>
    match integer? s with
    | some n => .ok (.int (max n 1))
    | none => .error .badValue

/-! ### Reading a table -/

def readPath (home : Option String) (fields : Fields) (name : String) :
    Except Fault (Checked (Option Path)) :=
  match Mapping.get? fields name with
  | none => .ok (.ok none)
  | some .null => .ok (.ok none)
  | some (.text s) => do
    return Checked.under (.name name) ((← expandPath home s).map some)
  | some _ => .error .wrongType

/-- A form of the report. -/
def readOutput : Value → Checked OutputKind
  | .text s =>
    Read.ofCharacters (fun s =>
      match OutputKind.ofText? s with
      | some k => .ok k
      | none => Checked.fault .notAChoice) s
  | _ => Checked.fault .notAChoice

def readTexts : Value → Checked (List String) := Read.listOr .notTuple Read.text

/-- A text that follows a rule, or null. -/
def readRuled (rule : String → Checked String) : Value → Checked (Option String) :=
  Read.nullable fun v => do rule (← Read.text v)

/-- The options that a table gives with its paths. -/
def readFields (fields : Fields) (targetDir manifestPath : Checked (Option Path)) :
    Checked RunOptions :=
  let flag (name : String) : Checked Bool := Read.optional fields name false Read.bool
  let texts (name : String) : Checked (List String) := Read.optional fields name [] readTexts
  let make : Checked _ := .ok fun output quiet verbose packages workspace exclude jobs lib bins
      binNames examples exampleNames tests testNames benches benchNames allTargets release profile
      features allFeatures noDefaultFeatures target targetDir manifestPath frozen locked offline =>
    ({ output, quiet, verbose, packages, workspace, exclude, jobs, lib, bins, binNames, examples,
       exampleNames, tests, testNames, benches, benchNames, allTargets, release, profile, features,
       allFeatures, noDefaultFeatures, target, targetDir, manifestPath, frozen, locked,
       offline } : RunOptions)
  make
    |>.apply (Read.optional fields "output" .human readOutput)
    |>.apply (flag "quiet")
    |>.apply (Read.optional fields "verbose" 0 Read.int)
    |>.apply (texts "packages")
    |>.apply (flag "workspace")
    |>.apply (texts "exclude")
    |>.apply (Read.optional fields "jobs" none (readRuled checkJobs))
    |>.apply (flag "lib")
    |>.apply (flag "bins")
    |>.apply (texts "bin")
    |>.apply (flag "examples")
    |>.apply (texts "example")
    |>.apply (flag "tests")
    |>.apply (texts "test")
    |>.apply (flag "benches")
    |>.apply (texts "bench")
    |>.apply (flag "all_targets")
    |>.apply (flag "release")
    |>.apply (Read.optional fields "profile" none (readRuled checkProfile))
    |>.apply (texts "features")
    |>.apply (flag "all_features")
    |>.apply (flag "no_default_features")
    |>.apply (Read.optional fields "target" none (Read.nullable Read.text))
    |>.apply targetDir
    |>.apply manifestPath
    |>.apply (flag "frozen")
    |>.apply (flag "locked")
    |>.apply (flag "offline")

/-- The options that a table gives. -/
def ofFields (home : Option String) (fields : Fields) : Except Fault RunOptions := do
  let targetDir ← readPath home fields "target_dir"
  let manifestPath ← readPath home fields "manifest_path"
  (readFields fields targetDir manifestPath).mapError .schema

/-- The options that a value gives; only a table gives any. -/
def ofValue (home : Option String) : Value → Except Fault RunOptions
  | .table fields => ofFields home fields
  | _ => .error .wrongType

end UnusedDeps.RunOptions
