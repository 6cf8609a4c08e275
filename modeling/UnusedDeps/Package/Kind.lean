import UnusedDeps.Value.Basic

/-!
# Dependency kinds

A dependency is declared for the package itself, for its tests and examples, or
for its build script.
-/

namespace UnusedDeps

/-- The build phase that a declared dependency applies to. -/
inductive DependencyKind where
  | normal
  | development
  | build
  deriving DecidableEq, Repr

/-- Why a value names no dependency kind. -/
inductive KindFault where
  | unknown (v : Value)
  /-- Lists and tables cannot be compared with a name. -/
  | wrongType

namespace DependencyKind

/-- Every kind, in the order of reports. -/
def all : List DependencyKind := [.normal, .development, .build]

theorem mem_all (k : DependencyKind) : k ∈ all := by cases k <;> decide

def text : DependencyKind → String
  | .normal => "normal"
  | .development => "development"
  | .build => "build"

/-- What stands before `dependencies` in the name of a manifest section. -/
def sectionStart : DependencyKind → String
  | .normal => ""
  | .development => "dev-"
  | .build => "build-"

/-- The kind that a resolver document names; a missing name is the normal kind. -/
def ofValue : Value → Except KindFault DependencyKind
  | .null => .ok .normal
  | .text s =>
    if s = "normal" then .ok .normal
    else if s = "dev" || s = "development" then .ok .development
    else if s = "build" then .ok .build
    else .error (.unknown (.text s))
  | .list _ => .error .wrongType
  | .table _ => .error .wrongType
  | v => .error (.unknown v)

end DependencyKind

end UnusedDeps
