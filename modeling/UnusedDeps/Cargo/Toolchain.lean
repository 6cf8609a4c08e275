import UnusedDeps.Spool.Index
import UnusedDeps.Toolchain.Config

/-!
# The toolchain as a build sees it

A run gives commands to the toolchain and goes on with its answers. A toolchain
is any function from calls to answers; a step that gives commands keeps them in
order beside its log lines and its end.
-/

namespace UnusedDeps

/-- A command for the toolchain. -/
structure CargoCall where
  args : List String
  /-- The variables that are set on top of those of the process. -/
  env : Environment
  /-- The names and texts of the files in the spool directory when the command is given. -/
  spool : List (String × String)
  deriving DecidableEq, Repr

/-- What comes of a command. -/
inductive CargoAnswer where
  /-- The command ended and left files in the spool directory. -/
  | ended (result : ToolResult) (spool : SpoolFiles)
  | missing (tool configured : String)
  /-- The command was stopped. -/
  | aborted (result : ToolResult)

/-- The answer to a command that ended and left files with some texts in the spool directory. -/
def CargoAnswer.finished (result : ToolResult) (texts : List (String × String)) : CargoAnswer :=
  .ended result (SpoolFiles.ofTexts texts)

/-- A toolchain. -/
structure Toolchain where
  /-- The executable of the package manager. -/
  executable : Except Fault String
  answer : CargoCall → CargoAnswer
  spoolDirectory : Path

/-- A step that gives commands to a toolchain. -/
structure Driven (α : Type) where
  calls : List CargoCall
  outcome : Logged α

namespace Driven

/-- The step that gives no command. -/
def ofLogged {α : Type} (x : Logged α) : Driven α := ⟨[], x⟩

/-- The step that gives no command and ends as given. -/
def ofExcept {α : Type} (e : Except Fault α) : Driven α := ofLogged (.ofExcept e)

/-- The step that ends with a problem. -/
def failWith {α : Type} (p : Problem) : Driven α := ofLogged (.failWith p)

/-- The first step and, when it has an answer, the step that follows from it. -/
def andThen {α β : Type} (x : Driven α) (f : α → Driven β) : Driven β :=
  match x.outcome.result with
  | .ok a =>
    ⟨x.calls ++ (f a).calls, ⟨x.outcome.lines ++ (f a).outcome.lines, (f a).outcome.result⟩⟩
  | .error e => ⟨x.calls, ⟨x.outcome.lines, .error e⟩⟩

instance : Monad Driven where
  pure := fun a => ofLogged (.answer a)
  bind := andThen

theorem calls_bind {α β : Type} (x : Driven α) (f : α → Driven β) :
    (x >>= f).calls = x.calls ++ match x.outcome.result with
      | .ok a => (f a).calls
      | .error _ => [] := by
  show (andThen x f).calls = _
  unfold andThen
  cases x.outcome.result <;> simp

theorem result_bind {α β : Type} (x : Driven α) (f : α → Driven β) :
    (x >>= f).outcome.result = x.outcome.result >>= fun a => (f a).outcome.result := by
  show (andThen x f).outcome.result = _
  unfold andThen
  cases x.outcome.result <;> rfl

/-- The step that gives one command; a command that does not end is a problem. -/
def command (t : Toolchain) (c : CargoCall) : Driven (ToolResult × SpoolFiles) :=
  match t.answer c with
  | .ended result spool => ⟨[c], .answer (result, spool)⟩
  | .missing tool configured => ⟨[c], .failWith (.missingTool tool configured)⟩
  | .aborted result => ⟨[c], .failWith (.abortedCommand result)⟩

end Driven

end UnusedDeps
