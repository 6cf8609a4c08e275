import UnusedDeps.Json.Printer
import UnusedDeps.Report.Human

/-!
# The report for programs

The report for programs is the outcome as one line of JSON, in which only the
quote, the backslash and the controls are escaped.
-/

namespace UnusedDeps.Report

def json (o : Outcome) : Except Fault String := do
  return UnusedDeps.Json.print .unicode (← o.toValue) ++ "\n"

/-- The report in the chosen form. -/
def write (o : Outcome) : OutputKind → Except Fault String
  | .human => human o
  | .json => json o

end UnusedDeps.Report
