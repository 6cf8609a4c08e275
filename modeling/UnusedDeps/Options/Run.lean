import UnusedDeps.Problem.Basic

/-!
# Run options

The options of a run choose the report, the packages and targets that are built,
and the way they are built. Most of them are passed on to the toolchain: the
module writes the argument lists of its `metadata`, `check` and `clean` commands.
-/

namespace UnusedDeps

/-- The two forms of the report. -/
inductive OutputKind where
  | human
  | json
  deriving DecidableEq, Repr

namespace OutputKind

/-- The name of a form. -/
def text : OutputKind → String
  | .human => "human"
  | .json => "json"

/-- Both forms. -/
def all : List OutputKind := [.human, .json]

/-- The form with a name. -/
def ofText? (s : String) : Option OutputKind := all.find? fun k => k.text = s

end OutputKind

/-- The options of a run. -/
structure RunOptions where
  output : OutputKind := .human
  quiet : Bool := false
  verbose : Int := 0
  packages : List String := []
  workspace : Bool := false
  exclude : List String := []
  jobs : Option String := none
  lib : Bool := false
  bins : Bool := false
  binNames : List String := []
  examples : Bool := false
  exampleNames : List String := []
  tests : Bool := false
  testNames : List String := []
  benches : Bool := false
  benchNames : List String := []
  allTargets : Bool := false
  release : Bool := false
  profile : Option String := none
  features : List String := []
  allFeatures : Bool := false
  noDefaultFeatures : Bool := false
  target : Option String := none
  targetDir : Option Path := none
  manifestPath : Option Path := none
  frozen : Bool := false
  locked : Bool := false
  offline : Bool := false
  deriving DecidableEq

namespace RunOptions

/-- Whether any option narrows or widens the targets that are built. -/
def hasTargetSelection (o : RunOptions) : Bool :=
  o.lib || o.bins || o.examples || o.tests || o.benches
    || !o.binNames.isEmpty || !o.exampleNames.isEmpty
    || !o.testNames.isEmpty || !o.benchNames.isEmpty || o.allTargets

/-! ### Argument lists -/

/-- A flag, when it is set. -/
def flag (name : String) (isSet : Bool) : List String := if isSet then [name] else []

def repeated (name : String) (values : List String) : List String :=
  values.flatMap fun v => [name, v]

/-- A flag with its value, when there is one. -/
def valued (name : String) (value : Option String) : List String := repeated name value.toList

/-- The arguments that choose targets. -/
def targetArgs (o : RunOptions) : List String :=
  flag "--lib" o.lib ++ flag "--bins" o.bins ++ flag "--examples" o.examples
    ++ flag "--tests" o.tests ++ flag "--benches" o.benches ++ flag "--all-targets" o.allTargets
    ++ repeated "--bin" o.binNames ++ repeated "--example" o.exampleNames
    ++ repeated "--test" o.testNames
    ++ repeated "--bench" o.benchNames

/-- The arguments that choose features. -/
def featureArgs (o : RunOptions) : List String :=
  (if o.features.isEmpty then [] else ["--features", String.intercalate " " o.features])
    ++ flag "--all-features" o.allFeatures
    ++ flag "--no-default-features" o.noDefaultFeatures

/-- The arguments that choose the manifest and how its lock file is used. -/
def manifestArgs (o : RunOptions) : List String :=
  valued "--manifest-path" (o.manifestPath.map (·.text)) ++ flag "--frozen" o.frozen
    ++ flag "--locked" o.locked ++ flag "--offline" o.offline

/-- The arguments of the `metadata` command. -/
def metadataArgs (o : RunOptions) : List String :=
  ["metadata", "--format-version", "1"] ++ o.featureArgs ++ o.manifestArgs

/-- The argument that makes the build talk, which says so at most twice. A number of times below
all machine integers cannot be counted to. -/
def verboseArgs (o : RunOptions) : Except Fault (List String) :=
  if o.verbose < -(twoPow 63 : Int) then .error .tooLarge
  else if o.verbose = 0 then .ok []
  else .ok [String.ofList ('-' :: List.replicate (min o.verbose 2).toNat 'v')]

/-- The arguments of the `check` command. -/
def checkArgs (o : RunOptions) : Except Fault (List String) := do
  return ["check", "--message-format", "short"]
    ++ repeated "--package" o.packages ++ flag "--workspace" o.workspace
    ++ repeated "--exclude" o.exclude ++ valued "--jobs" o.jobs ++ o.targetArgs
    ++ flag "--release" o.release ++ valued "--profile" o.profile ++ o.featureArgs
    ++ valued "--target" o.target ++ valued "--target-dir" (o.targetDir.map (·.text))
    ++ o.manifestArgs ++ (← o.verboseArgs) ++ flag "--quiet" o.quiet

/-- The arguments of the `clean` command for some packages. -/
def cleanArgs (o : RunOptions) (names : List String) : List String :=
  ["clean"] ++ repeated "--package" names
    ++ valued "--target-dir" (o.targetDir.map (·.text))
    ++ valued "--manifest-path" (o.manifestPath.map (·.text)) ++ flag "--release" o.release

end RunOptions

end UnusedDeps
