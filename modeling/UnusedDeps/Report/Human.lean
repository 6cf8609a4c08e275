import UnusedDeps.Outcome.Basic

/-!
# The report for readers

The report names each listed package and draws its unused dependencies as a
tree with one branch for each kind. The last branch of a package and the last
leaf of a branch have closing joints.
-/

namespace UnusedDeps.Report

def successLine : String := "All deps seem to have been used."

/-- The first line of the report of a run with unused dependencies. -/
def headerLine : String := "unused dependencies:"

/-- The lines of the leaves of a branch; `edge` is what stands below the joint of the branch. -/
def leafLines (edge : String) : List Value → List String
  | [] => []
  | name :: rest =>
    let joint := if rest.isEmpty then "└" else "├"
    (edge ++ "    " ++ joint ++ "─── \"" ++ name.plainText ++ "\"") :: leafLines edge rest

/-- The lines of the branch of a kind, none when it has no leaf. -/
def branchLines (kind : DependencyKind) (isLast : Bool) (names : List Value) : List String :=
  if names.isEmpty then []
  else
    let (edge, joint) := if isLast then (" ", "└") else ("│", "├")
    (joint ++ "─── " ++ kind.sectionStart ++ "dependencies") :: leafLines edge names

def treeLines (e : UnusedEntry) : List String :=
  branchLines .normal (e.development.isEmpty && e.build.isEmpty) e.normal
    ++ branchLines .development e.build.isEmpty e.development
    ++ branchLines .build true e.build

def packageLines (e : PackageId × UnusedEntry) : List String :=
  ("`" ++ e.1.text ++ "`") :: treeLines e.2

/-- What a note adds to the report: a text adds itself, and what does not count as true nothing. -/
def noteText (note : Value) : Except Fault String :=
  match note with
  | .text s => .ok s
  | v => if v.isTruthy then .error .wrongType else .ok ""

def human (o : Outcome) : Except Fault String := do
  if o.success.isTruthy then return successLine ++ "\n"
  let entries ← o.unused.sorted
  let lines := headerLine :: entries.flatMap packageLines
  return String.intercalate "\n" lines ++ "\n" ++ (← noteText o.note)

end UnusedDeps.Report
