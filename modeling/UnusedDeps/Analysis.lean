import UnusedDeps.Names.Ambiguity
import UnusedDeps.Outcome.Aggregate

/-!
# The analysis

The analysis takes the graph of a workspace and the records of a build. It warns
of names that cannot be told apart, finds out what the units use, and lists what
is left.
-/

namespace UnusedDeps

/-- What an analysis finds. -/
structure AnalysisResult where
  outcome : Outcome
  ambiguities : List AmbiguityReport
  deriving DecidableEq

namespace AnalysisResult

/-- The exit code of a run that ends with a report. -/
def exitCode (r : AnalysisResult) : Nat := if r.outcome.success.isTruthy then 0 else 1

end AnalysisResult

/-- The exit code of a run that ends with a problem. -/
def problemExitCode : Nat := 2

namespace Analysis

def logger : String := "udeps.orchestration.pipeline"

/-- The line that sums up an outcome. -/
def summary (o : Outcome) : String :=
  "Analysis complete: " ++ toString (o.unused.filter fun e => !e.2.isEmpty).length
    ++ " package(s) with findings, success=" ++ o.success.plainText

def run (g : Graph) (records : List InvocationRecord) (options : RunOptions)
    (artifacts : ArtifactLoader) (ignores : IgnoreLoader) : Logged AnalysisResult := do
  let names ← .ofExcept (NameTables.ofGraph g)
  let ambiguities ← AmbiguityReport.warnAll names
  let used ← UsedDependencies.ofRecords names artifacts records
  let outcome ← Outcome.aggregate g names used options ignores
  .log .info logger (summary outcome)
  return ⟨outcome, ambiguities⟩

end Analysis

end UnusedDeps
