import Mathlib
import UnusedDeps.CommandLine.Run
import UnusedDeps.Proofs.Failures.Analysis
import UnusedDeps.Proofs.Failures.Document
import UnusedDeps.Proofs.Failures.Readers
import UnusedDeps.Proofs.Options.Jobs
import UnusedDeps.Proofs.Text.Shown

/-!
# Offline runs

A run that is given a resolver document and an invocation log calls no tool: it
reads its options and then files, each one after those before it have been read.
It ends with the code 2 and a message, or with a report, unless it comes to a
fault that no reader turns into a problem. Main statement: `ends_offline`.
-/

namespace UnusedDeps.CommandLine

variable {home : Option String} {fields : Fields}

/-! ### Steps of a run -/

section

variable [Whereabouts]

/-! ### Options -/

/-- A file that a run reads, by what the run reads it for. -/
inductive Input where
  | graph (value : Value)
  | log (value : Value)
  | artifact (record : InvocationRecord)
  | manifest (package : PackageInfo)

variable {s : Surroundings}

/-- What a build with some options is set up with. -/
def setupOf (s : Surroundings) (options : RunOptions) : BuildSetup :=
  ⟨options, s.toolchain, s.env, s.files, s.wrapper⟩

/-- Whether a run gets as far as a graph. -/
structure FindsGraph (s : Surroundings) (fields : Fields) (options : RunOptions) (g : Graph) :
    Prop where
  accepted : runOptions (Mapping.get? s.env "HOME") fields = .ok options
  found : (graphOf s (setupOf s options) fields).outcome.result = .ok g

/-- Whether a run gets as far as its records. -/
structure FindsRecords (s : Surroundings) (fields : Fields) (options : RunOptions) (g : Graph)
    (records : List InvocationRecord) : Prop extends FindsGraph s fields options g where
  replayed : (recordsOf s (setupOf s options) fields g).outcome.result = .ok records

/-- Whether a run comes to read a file: what it reads before has answers. -/
inductive Reads (s : Surroundings) (fields : Fields) : Input → Prop where
  | graph {options : RunOptions} {v : Value}
      (accepted : runOptions (Mapping.get? s.env "HOME") fields = .ok options)
      (given : Mapping.get? fields "metadata_file" = some v) : Reads s fields (.graph v)
  | log {options : RunOptions} {g : Graph} {v : Value} (found : FindsGraph s fields options g)
      (given : Mapping.get? fields "invocations" = some v) : Reads s fields (.log v)
  | artifact {options : RunOptions} {g : Graph} {records : List InvocationRecord}
      {r : InvocationRecord} (found : FindsRecords s fields options g records)
      (reached : Reached (UsedDependencies.Takes (UsageArtifact.load s.files)) records r) :
      Reads s fields (.artifact r)
  | manifest {options : RunOptions} {g : Graph} {records : List InvocationRecord}
      {p : PackageInfo} (found : FindsRecords s fields options g records)
      (taken : ∀ r ∈ records, UsedDependencies.Takes (UsageArtifact.load s.files) r)
      (asked : Analysis.AsksFor g (IgnoreTable.load s.files) p) : Reads s fields (.manifest p)

/-- What an offline run leaves behind. It gives no command. It ends with the code 2 exactly when its
analysis ends with a problem, and then writes one message after its log lines and no report; it
ends with the code 0 or 1 exactly when it writes a report. -/
structure Ends (s : Surroundings) (fields : Fields) (o : Outcome) : Prop where
  calls : o.calls = []
  codes : ∀ code, o.exit = .ok code → code = 0 ∨ code = 1 ∨ code = 2
  failed : o.exit = .ok 2 ↔ ∃ p, (analysisOf s fields).outcome.result = .error (.problem p)
  told : ∀ p, (analysisOf s fields).outcome.result = .error (.problem p) →
    o.stdout = "" ∧ o.stderr = shownLines (shownLevel fields)
      ((analysisOf s fields).outcome.lines ++ problemLines fields p) ++ "error: " ++ p.message
        ++ "\n"
  written : o.exit = .ok 0 ∨ o.exit = .ok 1 ↔
    ∃ kind a, (analysisOf s fields).outcome.result = .ok (kind, a) ∧
      Report.write a.outcome kind = .ok o.stdout

end

/-! ### Two runs -/

end UnusedDeps.CommandLine
