import UnusedDeps.Mapping
import UnusedDeps.Shell.Script

/-!
# Shell tokens

A script is read from its characters, which a reader takes one after another. A
line end behind a backslash joins two lines. Words, operators and line ends are
the tokens of a script; a token that was read too early is put back.
-/

namespace UnusedDeps.Shell

/-- What a redirection operator asks for. -/
inductive RedirectionKind where
  | file (direction : Direction)
  /-- A text of the script, from whose lines leading tabs may be dropped. -/
  | document (dropTabs : Bool)
  deriving DecidableEq, Repr

/-- A token of a script. -/
inductive Token where
  | endOfFile
  | newline
  | semicolon
  | ampersand
  | both
  | either
  | pipe
  | opening
  | closing
  | endOfCase
  | redirection (descriptor : Nat) (kind : RedirectionKind)
  /-- A word, and whether some of it is quoted. -/
  | word (w : Word) (quoted : Bool)
  | reserved (name : String)

namespace Token

/-- How complaints name a token. -/
def text : Token → String
  | .endOfFile => "end of file"
  | .newline => "newline"
  | .semicolon => "\";\""
  | .ampersand => "\"&\""
  | .both => "\"&&\""
  | .either => "\"||\""
  | .pipe => "\"|\""
  | .opening => "\"(\""
  | .closing => "\")\""
  | .endOfCase => "\";;\""
  | .redirection .. => "redirection"
  | .word .. => "word"
  | .reserved name => "\"" ++ name ++ "\""

/-- Whether a token is the given word of a compound command. -/
def isReserved (t : Token) (name : String) : Bool :=
  match t with
  | .reserved n => n = name
  | _ => false

/-- Whether a list of commands can end before a token. -/
def endsList : Token → Bool
  | .endOfFile => true
  | .closing => true
  | .endOfCase => true
  | .reserved n => ["do", "done", "elif", "else", "esac", "fi", "then", "\x7d"].contains n
  | _ => false

/-- The word of a token; reserved words are words too. -/
def asWord : Token → Word
  | .word w _ => w
  | .reserved name => [.text name false]
  | _ => []

def asCommandStart (t : Token) : Token :=
  match t with
  | .word w false =>
    match Word.plain? w with
    | some s => if reservedWords.contains s then .reserved s else t
    | none => t
  | t => t

end Token

/-- What the next token is asked for. -/
structure Wanted where
  /-- Whether reserved words count as such. -/
  keywords : Bool := false
  skipLines : Bool := false
  /-- Whether other words may stand for the text of the script. -/
  aliases : Bool := false

/-- A text of the script that commands before it read. -/
structure Pending where
  id : Nat
  mark : List Char
  dropTabs : Bool
  quoted : Bool

/-- A word whose text is read in its place. -/
structure ActiveAlias where
  name : String
  /-- How many characters follow its text. -/
  behind : Nat
  endsBlank : Bool

/-- What is left of a script, and what has been noted about it. -/
structure Source where
  rest : List Char
  line : Nat
  wanted : Wanted
  pushed : Option Token
  pending : List Pending
  /-- The texts read, each with its number. -/
  documents : List (Nat × Word)
  /-- The number of the next text. -/
  next : Nat
  /-- The words that stand for a text of the script. -/
  aliases : Mapping String String
  /-- The words whose texts are being read. -/
  active : List ActiveAlias
  /-- Whether the text of such a word, with a blank at its end, ended in front of the last token. -/
  resumed : Bool := false

/-- The source of a script that starts with a line. -/
def Source.ofText (line : Nat) (text : String) : Source :=
  ⟨text.toList, line, {}, none, [], [], 0, [], [], false⟩

abbrev Read := StateT Source (Except ScriptFault)

namespace Read

/-- Refuses the script. -/
def fail {α : Type} (reason : String) : Read α := do throw ⟨(← get).line, reason⟩

/-- Refuses a token, perhaps because another one is expected. -/
def unexpected {α : Type} (t : Token) (expected : Option Token) : Read α :=
  let hint := match expected with
    | some e => " (expecting " ++ e.text ++ ")"
    | none => ""
  fail (t.text ++ " unexpected" ++ hint)

/-- Says what is wanted of the next token. -/
def want (wanted : Wanted) : Read Unit := modify fun s => { s with wanted := wanted }

def putBack (t : Token) : Read Unit := modify fun s => { s with pushed := some t }

/-- The next character as it stands. -/
def peekRaw : Read (Option Char) := do return (← get).rest.head?

/-- Drops the next character. -/
def skip : Read Unit :=
  modify fun s =>
    match s.rest with
    | [] => s
    | c :: r => { s with rest := r, line := if c = '\n' then s.line + 1 else s.line }

/-- The characters from the first one on that no joined line end hides, with their line. -/
def dropJoins : List Char → Nat → List Char × Nat
  | '\\' :: '\n' :: r, line => dropJoins r (line + 1)
  | r, line => (r, line)

/-- Drops the next character, which does not count as the end of a line. -/
def skipUncounted : Read Unit := modify fun s => { s with rest := s.rest.tail }

/-- The next character, with lines joined. -/
def peek : Read (Option Char) := do
  modify fun s => let (rest, line) := dropJoins s.rest s.line; { s with rest, line }
  peekRaw

/-- Whether the next character is the given one, which is dropped then. -/
def accept (c : Char) : Read Bool := do
  if (← peek) = some c then skip; return true
  else return false

/-- The characters from the next token on, without blanks and comments, with their line. -/
def dropBlanks : Bool → List Char → Nat → List Char × Nat
  | false, '\\' :: '\n' :: r, line => dropBlanks false r (line + 1)
  | false, ' ' :: r, line => dropBlanks false r line
  | false, '\t' :: r, line => dropBlanks false r line
  | false, '#' :: r, line => dropBlanks true r line
  | true, '\n' :: r, line => ('\n' :: r, line)
  | true, _ :: r, line => dropBlanks true r line
  | _, r, line => (r, line)

/-- Goes to the next token. -/
def skipBlanks : Read Unit :=
  modify fun s => let (rest, line) := dropBlanks false s.rest s.line; { s with rest, line }

/-- The characters before a mark, which is dropped, and what is done without it. -/
def until? (mark : Char) : Read (Option String) := do
  let s ← get
  let inside := s.rest.takeWhile (· ≠ mark)
  let line := s.line + inside.count '\n'
  match s.rest.drop inside.length with
  | [] => set { s with rest := [], line := line }; return none
  | _ :: r => set { s with rest := r, line := line }; return some (String.ofList inside)

end Read

end UnusedDeps.Shell
