import UnusedDeps.Json.Printer
import UnusedDeps.Value.Equality
import UnusedDeps.Value.Text

/-!
# Problem details

A failure is reported as a record with a type, a title, a detail, the identifier
of its occurrence, a code, and extra fields for diagnosis.
-/

namespace UnusedDeps

/-- The identifier of an occurrence that has none of its own. -/
def unnamedInstance : String := "00000000-0000-0000-0000-000000000000"

/-- Where the types of problems are described. -/
def problemNamespace : String := "https://problems.udeps.dev/"

/-- A problem in the form in which it is logged. Its parts are texts, unless whoever reports it
gives other values. -/
structure ProblemDetail where
  type : Value
  title : Value
  detail : Value
  occurrence : Value
  code : Value
  extras : Value

namespace ProblemDetail

/-- A value, or another one in its place when it does not count as true. -/
def orElse (v other : Value) : Value := if v.isTruthy then v else other

/-- The problem with a code; the type follows from the code unless one is given. -/
def ofCode (code title detail extras occurrence type : Value) : ProblemDetail where
  type := orElse type (.text (problemNamespace ++ code.plainText))
  title := title
  detail := detail
  occurrence := orElse occurrence (.text unnamedInstance)
  code := code
  extras := orElse extras (.table [])

/-- The problem as a table; the code and the extra fields are left out when there are none. -/
def toValue (p : ProblemDetail) : Value :=
  .table <|
    [("type", p.type), ("title", p.title), ("detail", p.detail), ("instance", p.occurrence)]
    ++ (if p.code = .null then [] else [("code", p.code)])
    ++ (if p.extras.isTruthy then [("extras", p.extras)] else [])

/-- What a person is told. -/
def message (p : ProblemDetail) : String := p.detail.plainText

/-- The line that logs the problem. -/
def logText (p : ProblemDetail) : String := Json.print .ascii p.toValue

end ProblemDetail

end UnusedDeps
