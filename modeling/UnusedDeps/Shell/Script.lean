import UnusedDeps.Shell.Name

/-!
# Shell scripts

A script is a tree of commands. A simple command is made of words, and a word of
pieces: text that stands for itself, and what is expanded when the command runs,
which may hold words and commands again.
-/

namespace UnusedDeps.Shell

/-- What a script can ask the shell for. -/
inductive Parameter where
  | variable (name : String)
  | positional (n : Nat)
  /-- All arguments, each as a word of its own when they are separate. -/
  | arguments (separate : Bool)
  | count
  | status
  | process
  /-- The process that was last left in the background. -/
  | background
  | options
  deriving DecidableEq, Repr

/-- What happens with a word beside a parameter. -/
inductive Choice where
  /-- It stands for a parameter without value. -/
  | default
  /-- It becomes the value of a parameter without value. -/
  | assign
  /-- It is the complaint about a parameter without value. -/
  | demand
  /-- It stands for a parameter with a value. -/
  | alternative
  deriving DecidableEq, Repr

/-- What is done to a descriptor. -/
inductive Direction where
  | read
  | write
  /-- A write that may replace a file even when files are protected. -/
  | replace
  | append
  | readWrite
  /-- The descriptor becomes a copy of another one. -/
  | copy
  deriving DecidableEq, Repr

mutual

/-- A part of a word; what is not quoted is split into fields after its expansion. -/
inductive Piece where
  | text (s : String) (quoted : Bool)
  | parameter (p : Parameter) (use : Use) (quoted : Bool)
  /-- What a command writes. -/
  | output (c : Command) (quoted : Bool)
  | arithmetic (expression : List Piece) (quoted : Bool)

/-- How the value of a parameter is used. -/
inductive Use where
  | value
  | length
  /-- A word beside the value; an empty value may count as none. -/
  | word (choice : Choice) (orEmpty : Bool) (pieces : List Piece)
  /-- The value without its shortest or longest start or end that has a pattern. -/
  | trim (atEnd longest : Bool) (pattern : List Piece)
  /-- The value and a word behind it, with which the whole text ends. -/
  | last (pieces : List Piece)
  /-- A use that no shell knows. -/
  | invalid

/-- A descriptor that a command uses in another way. -/
inductive Redirection where
  | file (descriptor : Nat) (direction : Direction) (target : List Piece)
  /-- The descriptor reads a text of the script. -/
  | document (descriptor : Nat) (id : Nat)

/-- A command. -/
inductive Command where
  /-- Words behind values that variables are set to. -/
  | simple (line : Nat) (assignments : List (String × List Piece)) (words : List (List Piece))
    (redirections : List Redirection)
  /-- Commands each of which reads what the one before it writes. -/
  | pipeline (commands : List Command)
  | negation (c : Command)
  /-- A second command after the success of a first one. -/
  | both (first second : Command)
  /-- A second command after the failure of a first one. -/
  | either (first second : Command)
  | sequence (commands : List Command)
  | background (line : Nat) (c : Command)
  /-- A command in a shell of its own. -/
  | subshell (line : Nat) (c : Command) (redirections : List Redirection)
  | redirected (line : Nat) (c : Command) (redirections : List Redirection)
  | branch (condition success failure : Command)
  /-- A loop that goes on while, or until, a condition holds. -/
  | loop (isUntil : Bool) (condition body : Command)
  /-- A loop over fields. -/
  | each (line : Nat) (name : String) (words : List (List Piece)) (body : Command)
  /-- The first command one of whose patterns a word has. -/
  | select (line : Nat) (subject : List Piece) (cases : List (List (List Piece) × Command))
  | define (name : String) (body : Command)

end

abbrev Word := List Piece

def Command.nothing : Command := .sequence []

instance : Inhabited Command := ⟨.nothing⟩

def Piece.isQuoted : Piece → Bool
  | .text _ quoted => quoted
  | .parameter _ _ quoted => quoted
  | .output _ quoted => quoted
  | .arithmetic _ quoted => quoted

/-- Whether a text ends with a piece, whatever stands behind it. -/
def Piece.isLast : Piece → Bool
  | .parameter _ (.last _) _ => true
  | _ => false

/-- The text of a word without quotes and expansions. -/
def Word.plain? : Word → Option String
  | [.text s false] => some s
  | _ => none

/-- The text of a word that is not expanded. -/
def Word.literal (w : Word) : String :=
  String.join <| w.map fun
    | .text s _ => s
    | _ => ""

/-- The variable that a word sets and the word for its value; `none` for other words. -/
def Word.assignment? (w : Word) : Option (String × Word) :=
  match w with
  | .text t false :: rest =>
    if t.contains '=' then
      (Shell.assignment? t).map fun a => (a.1, if a.2.isEmpty then rest else .text a.2 false :: rest)
    else none
  | _ => none

/-- Why a text is no script that the shell can run. -/
structure ScriptFault where
  line : Nat
  reason : String
  deriving DecidableEq, Repr

/-! ### Commands of the shell -/

/-- The commands of the shell whose errors end it. -/
def specialNames : List String :=
  [".", ":", "break", "continue", "eval", "exec", "exit", "export", "local", "readonly", "return",
    "set", "shift", "times", "trap", "unset"]

/-- The other commands of the shell. -/
def regularNames : List String :=
  ["[", "alias", "bg", "cd", "chdir", "command", "echo", "false", "fg", "getopts", "hash", "jobs",
    "kill", "printf", "pwd", "read", "test", "true", "type", "ulimit", "umask", "unalias",
    "wait"]

/-- The words that start or end a compound command. -/
def reservedWords : List String :=
  ["!", "case", "do", "done", "elif", "else", "esac", "fi", "for", "if", "in", "then", "until",
    "while", "\x7b", "\x7d"]

end UnusedDeps.Shell
