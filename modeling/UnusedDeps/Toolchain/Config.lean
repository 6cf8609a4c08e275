import UnusedDeps.Mapping
import UnusedDeps.Problem.Basic
import UnusedDeps.Schema.Read
import UnusedDeps.Text.Bytes

/-!
# The tools of a run

A run uses two tools, the package manager and the compiler. Which executables
stand for them, and how long they may take, is configured by a table or by the
environment.
-/

namespace UnusedDeps

/-- The variables of a process. -/
abbrev Environment := Mapping String String

namespace Environment

/-- Variables with others set on top of them. -/
def overlay {α : Type} (base changes : Mapping String α) : Mapping String α :=
  changes.foldl (fun env v => Mapping.set v.1 v.2 env) base

/-- The variables as values. -/
def toFields (env : Environment) : Fields := env.map fun v => (v.1, .text v.2)

/-- The variables that a process was started with, as it sees them. -/
def ofProcess (env : Environment) : Environment :=
  Mapping.ofPairs (env.map fun v => (Text.hostName v.1, Text.hostName v.2))

/-- The variables that a table gives; each must be a text. -/
def ofFields (fields : Fields) : Except Fault Environment :=
  fields.mapM fun
    | (name, .text s) => .ok (name, s)
    | _ => .error .wrongType

/-- The value of a variable that is set and not empty. -/
def nonempty? (env : Environment) (name : String) : Option String :=
  (Mapping.get? env name).filter (· ≠ "")

end Environment

/-- The tools that a run uses. -/
inductive ToolName where
  | cargo
  | rustc
  deriving DecidableEq, Repr

namespace ToolName

def text : ToolName → String
  | .cargo => "cargo"
  | .rustc => "rustc"

def all : List ToolName := [.cargo, .rustc]

def ofText? (s : String) : Option ToolName := all.find? fun t => t.text = s

theorem ofText?_text (t : ToolName) : ofText? t.text = some t := by cases t <;> decide

end ToolName

/-- Which executables stand for the tools. -/
structure ToolsConfig where
  cargo : String := ToolName.cargo.text
  rustc : String := ToolName.rustc.text
  /-- The seconds that a tool may take, where they are limited. -/
  timeout : Option Binary64 := none

namespace ToolsConfig

/-- The configuration that the variables of a process give. -/
def ofEnvironment (env : Environment) : ToolsConfig where
  cargo := (env.nonempty? "CARGO").getD ToolName.cargo.text
  rustc := (env.nonempty? "RUSTC").getD ToolName.rustc.text

/-- The configuration that a table gives. -/
def ofFields (fields : Fields) : Checked ToolsConfig :=
  let make : Checked _ := .ok fun cargo rustc timeout => ({ cargo, rustc, timeout } : ToolsConfig)
  make
    |>.apply (Read.optional fields "cargo_bin" ToolName.cargo.text Read.text)
    |>.apply (Read.optional fields "rustc_bin" ToolName.rustc.text Read.text)
    |>.apply (Read.optional fields "default_timeout_s" none (Read.nullable Read.float))

/-- The executable that stands for a name; a name that is no tool stands for itself. -/
def executable (c : ToolsConfig) (name : String) : String :=
  match ToolName.ofText? name with
  | some .cargo => c.cargo
  | some .rustc => c.rustc
  | none => name

end ToolsConfig

end UnusedDeps
