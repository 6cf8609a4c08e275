import UnusedDeps.Problem.Basic

/-!
# Steps that write log lines

A step of a run writes log lines and then ends with an answer or a fault. Lines
written before a fault stay written.
-/

namespace UnusedDeps

/-- How much a log line matters. -/
inductive LogLevel where
  | debug
  | info
  | warning
  | error
  deriving DecidableEq, Repr

def LogLevel.text : LogLevel → String
  | .debug => "DEBUG"
  | .info => "INFO"
  | .warning => "WARNING"
  | .error => "ERROR"

/-- The place of a level among the levels. -/
def LogLevel.rank : LogLevel → Nat
  | .debug => 0
  | .info => 1
  | .warning => 2
  | .error => 3

/-- A log line with the name of the part of the program that wrote it. -/
structure LogLine where
  level : LogLevel
  logger : String
  text : String
  deriving DecidableEq, Repr

/-- The lines that a step writes and how it ends. -/
structure Logged (α : Type) where
  lines : List LogLine
  result : Except Fault α

namespace Logged

/-- The step that writes nothing and has an answer. -/
def answer {α : Type} (a : α) : Logged α := ⟨[], .ok a⟩

/-- The step that ends with a fault. -/
def fail {α : Type} (f : Fault) : Logged α := ⟨[], .error f⟩

/-- The step that ends with a problem. -/
def failWith {α : Type} (p : Problem) : Logged α := fail (.problem p)

/-- The step that ends as given. -/
def ofExcept {α : Type} (e : Except Fault α) : Logged α := ⟨[], e⟩

/-- The step that writes one line. -/
def log (level : LogLevel) (logger text : String) : Logged Unit := ⟨[⟨level, logger, text⟩], .ok ()⟩

/-- The step that writes several lines. -/
def logAll (lines : List LogLine) : Logged Unit := ⟨lines, .ok ()⟩

/-- The first step and, when it has an answer, the step that follows from it. -/
def andThen {α β : Type} (x : Logged α) (f : α → Logged β) : Logged β :=
  match x.result with
  | .ok a => ⟨x.lines ++ (f a).lines, (f a).result⟩
  | .error e => ⟨x.lines, .error e⟩

instance : Monad Logged where
  pure := answer
  bind := andThen

theorem result_pure {α : Type} (a : α) : (pure a : Logged α).result = .ok a := rfl

theorem result_bind {α β : Type} (x : Logged α) (f : α → Logged β) :
    (x >>= f).result = x.result >>= fun a => (f a).result := by
  show (andThen x f).result = _
  unfold andThen
  cases x.result <;> rfl

/-- The answers of a step for each element of a list, up to the first fault. -/
def forEach {α β : Type} (f : α → Logged β) : List α → Logged (List β)
  | [] => answer []
  | a :: rest => do
    let b ← f a
    let bs ← forEach f rest
    return b :: bs

end Logged

end UnusedDeps
