import UnusedDeps.Shell.Word

/-!
# Reading scripts

Commands are read from the tokens of a script: lists of pipelines, simple and
compound commands, definitions of functions, and redirections. A script is read
one line of commands at a time, because what runs first can change what follows.
How commands inside commands are read is a parameter, and a bound on how deep
they lie closes the circle.
-/

namespace UnusedDeps.Shell

/-- How the commands inside a command are read. -/
structure InnerReaders where
  command : Read Command
  /-- Reads a list of commands, which may be empty or not, and puts back the token behind it. -/
  list : Bool → Read Command

namespace Read

/-! ### Tokens -/

/-- The operator that a character starts; `none` when it starts none. -/
def operator? (c : Char) : Read (Option Token) := do
  match c with
  | '\n' => skip; return some .newline
  | '&' => skip; return some (if ← accept '&' then .both else .ampersand)
  | '|' => skip; return some (if ← accept '|' then .either else .pipe)
  | ';' => skip; return some (if ← accept ';' then .endOfCase else .semicolon)
  | '(' => skip; return some .opening
  | ')' => skip; return some .closing
  | _ => return none

/-- What the redirection operator asks for that starts with `>`. -/
def outputKind : Read RedirectionKind := do
  match ← peek with
  | some '>' => skip; return .file .append
  | some '|' => skip; return .file .replace
  | some '&' => skip; return .file .copy
  | _ => return .file .write

/-- What the redirection operator asks for that starts with `<`. -/
def inputKind : Read RedirectionKind := do
  match ← peek with
  | some '<' => skip; return .document (← accept '-')
  | some '&' => skip; return .file .copy
  | some '>' => skip; return .file .readWrite
  | _ => return .file .read

/-- The redirection whose operator starts with a character, of a descriptor or the usual one. -/
def redirection (c : Char) (descriptor : Option Nat) : Read Token := do
  skip
  let kind ← if c = '>' then outputKind else inputKind
  return .redirection (descriptor.getD (if c = '>' then 1 else 0)) kind

/-- The descriptor that a word is when a redirection operator follows it. -/
def descriptor? (w : Word) : Option Nat :=
  match Word.plain? w with
  | some s => match s.toList with
    | [c] => digit? 10 c
    | _ => none
  | none => none

/-- The word or redirection that follows. -/
def wordToken (r : InnerReaders) (plain : Bool) : Read Token := do
  let w ← pieces (r.list true) { quoting := .bare, plain }
  match ← peekRaw with
  | some c =>
    if (c = '<' || c = '>') && (w.isEmpty || (descriptor? w).isSome) then
      redirection c (descriptor? w)
    else return .word w (w.any Piece.isQuoted)
  | none => return .word w (w.any Piece.isQuoted)

/-- The next token of the text; with `plain` nothing in it is expanded. -/
def rawToken (r : InnerReaders) (plain : Bool) : Read Token := do
  let before := (← get).rest.length
  skipBlanks
  let t ← match ← peek with
    | none => pure .endOfFile
    | some c => do
      match ← operator? c with
      | some t => pure t
      | none => wordToken r plain
  modify fun s =>
    let hasEnded (a : ActiveAlias) : Bool := s.rest.length ≤ a.behind && a.behind < before
    { s with resumed := s.active.any fun a => a.endsBlank && hasEnded a }
  return t

/-- The first token after line ends, each of which starts the documents that commands wait for. -/
def skipNewlines (r : InnerReaders) : Nat → Token → Read Token
  | bound + 1, .newline => do
    documents (r.list true)
    skipNewlines r bound (← rawToken r false)
  | _, t => return t

/-- The text that a word stands for, unless it comes from that text; it is read next then. -/
def alias? (t : Token) : Read Bool := do
  let s ← get
  match t with
  | .word w false =>
    match (Word.plain? w).bind fun name => (Mapping.get? s.aliases name).map fun v => (name, v) with
    | some (name, value) =>
      let behind := s.rest.length
      if s.active.any fun a => a.name = name && a.behind ≤ behind then return false
      else
        let endsBlank := value.toList.getLast?.any fun c => c = ' ' || c = '\t'
        set { s with
          rest := value.toList ++ s.rest
          active := ⟨name, behind, endsBlank⟩ :: s.active }
        return true
    | none => return false
  | _ => return false

/-- The token that is wanted, from the next token on; the bound is on how many words stand for
others. -/
def wantedToken (r : InnerReaders) (wanted : Wanted) : Nat → Token → Read Token
  | 0, t => return t
  | bound + 1, t => do
    let t ← if wanted.skipLines then skipNewlines r ((← get).rest.length + 1) t else pure t
    let t := if wanted.keywords then t.asCommandStart else t
    let wanted := { wanted with aliases := wanted.aliases || (← get).resumed }
    let isAlias ← if wanted.aliases then alias? t else pure false
    if isAlias then wantedToken r wanted bound (← rawToken r false) else return t

/-- The next token, as it is wanted. -/
def token (r : InnerReaders) (plain : Bool := false) : Read Token := do
  let s ← get
  set { s with wanted := {}, pushed := none, resumed := false }
  let t ← match s.pushed with
    | some t => pure t
    | none => rawToken r plain
  wantedToken r s.wanted (s.aliases.length + 1) t

/-- Reads a token that must be the given one. -/
def expect (r : InnerReaders) (name : String) : Read Unit := do
  let t ← token r
  if t.isReserved name then return () else unexpected t (some (.reserved name))

/-- Reads a token that must be a closing bracket. -/
def expectClosing (r : InnerReaders) : Read Unit := do
  match ← token r with
  | .closing => return ()
  | t => unexpected t (some .closing)

def commandStart : Wanted := ⟨true, false, true⟩

/-- What is wanted where a command starts, perhaps on a later line. -/
def laterCommand : Wanted := ⟨true, true, true⟩

def caseStart : Wanted := ⟨true, true, false⟩

/-! ### Redirections -/

/-- The redirection whose operator has been read. -/
def redirect (r : InnerReaders) (descriptor : Nat) (kind : RedirectionKind) : Read Redirection := do
  match kind with
  | .file direction =>
    match ← token r with
    | .word w _ => return .file descriptor direction w
    | t => unexpected t none
  | .document dropTabs =>
    match ← token r true with
    | .word w quoted =>
      modify fun s =>
        { s with
          next := s.next + 1
          pending := s.pending ++ [⟨s.next, (Word.literal w).toList, dropTabs, quoted⟩] }
      return .document descriptor ((← get).next - 1)
    | t => unexpected t none

/-- The redirections that follow, after those that have been read. -/
def redirections (r : InnerReaders) : Nat → List Redirection → Read (List Redirection)
  | 0, acc => return acc
  | bound + 1, acc => do
    want commandStart
    match ← token r with
    | .redirection descriptor kind =>
      redirections r bound (acc ++ [← redirect r descriptor kind])
    | t => putBack t; return acc

/-! ### Simple commands -/

def functionName? (w : Word) : Option String :=
  (Word.plain? w).filter fun s => isName s && !specialNames.contains s

/-- The simple command or the function that follows, after the parts of it that have been read. -/
def simpleAfter (r : InnerReaders) (line : Nat) :
    Nat → List (String × Word) → List Word → List Redirection → Read Command
  | 0, assignments, words, rs => return .simple line assignments words rs
  | bound + 1, assignments, words, rs => do
    if words.isEmpty then want ⟨false, false, true⟩
    match ← token r with
    | .word w _ =>
      match if words.isEmpty then w.assignment? else none with
      | some a => simpleAfter r line bound (assignments ++ [a]) words rs
      | none => simpleAfter r line bound assignments (words ++ [w]) rs
    | .redirection descriptor kind =>
      simpleAfter r line bound assignments words (rs ++ [← redirect r descriptor kind])
    | .opening =>
      match words with
      | [name] =>
        if assignments.isEmpty && rs.isEmpty then
          expectClosing r
          match functionName? name with
          | none => fail "Bad function name"
          | some s =>
            want laterCommand
            return .define s (← r.command)
        else putBack .opening; return .simple line assignments words rs
      | _ => putBack .opening; return .simple line assignments words rs
    | t => putBack t; return .simple line assignments words rs

/-! ### Compound commands -/

/-- The conditions and commands of a branch, from behind `if` on. -/
def branch (r : InnerReaders) : Nat → Read Command
  | 0 => return .nothing
  | bound + 1 => do
    let condition ← r.list false
    expect r "then"
    let success ← r.list false
    let t ← token r
    if t.isReserved "elif" then return .branch condition success (← branch r bound)
    else if t.isReserved "else" then return .branch condition success (← r.list false)
    else
      putBack t
      return .branch condition success .nothing

/-- The words that follow, and the token behind them. -/
def wordsThen (r : InnerReaders) : Nat → List Word → Read (List Word × Token)
  | 0, acc => return (acc, .endOfFile)
  | bound + 1, acc => do
    match ← token r with
    | .word w _ => wordsThen r bound (acc ++ [w])
    | t => return (acc, t)

/-- The loop over words, from behind `for` on. -/
def each (r : InnerReaders) (line : Nat) : Read Command := do
  let t ← token r
  match t, (Word.plain? t.asWord).filter isName with
  | .word _ _, some name =>
    want laterCommand
    let t ← token r
    let words ←
      if t.isReserved "in" then do
        let (ws, t) ← wordsThen r ((← get).rest.length + 1) []
        match t with
        | .newline => pure ws
        | .semicolon => pure ws
        | t => unexpected t none
      else do
        match t with
        | .semicolon => pure ()
        | t => putBack t
        pure [[.parameter (.arguments true) .value true]]
    want laterCommand
    expect r "do"
    return .each line name words (← r.list false)
  | _, _ => fail "Bad for loop variable"

/-- The patterns of a case, whose first one has been read, up to the closing bracket. -/
def patterns (r : InnerReaders) : Nat → List Word → Read (List Word)
  | 0, acc => return acc
  | bound + 1, acc => do
    match ← token r with
    | .pipe => patterns r bound (acc ++ [(← token r).asWord])
    | .closing => return acc
    | t => unexpected t (some .closing)

/-- The cases that follow, after those that have been read. -/
def cases (r : InnerReaders) :
    Nat → List (List Word × Command) → Read (List (List Word × Command))
  | 0, acc => return acc
  | bound + 1, acc => do
    want caseStart
    let t ← token r
    if t.isReserved "esac" then return acc
    else
      let first ← match t with
        | .opening => token r
        | t => pure t
      let ps ← patterns r ((← get).rest.length + 1) [first.asWord]
      let c ← r.list true
      want caseStart
      let acc := acc ++ [(ps, c)]
      match ← token r with
      | .endOfCase => cases r bound acc
      | t => if t.isReserved "esac" then return acc else unexpected t (some .endOfCase)

/-- The choice between cases, from behind `case` on. -/
def select (r : InnerReaders) (line : Nat) : Read Command := do
  match ← token r with
  | .word subject _ =>
    want laterCommand
    expect r "in"
    return .select line subject (← cases r ((← get).rest.length + 1) [])
  | t => unexpected t (some (.word [] false))

/-- The loop with a condition, from behind its first word on. -/
def loop (r : InnerReaders) (isUntil : Bool) : Read Command := do
  let condition ← r.list false
  expect r "do"
  return .loop isUntil condition (← r.list false)

/-- The compound command that a token starts, and the word that ends it, if one does; `none` when
the token starts none. -/
def compound? (r : InnerReaders) (line : Nat) (t : Token) : Read (Option Command) := do
  match t with
  | .opening =>
    let c ← r.list false
    expectClosing r
    return some (.subshell line c [])
  | .reserved name =>
    let c? ← match name with
      | "if" => do
        let c ← branch r ((← get).rest.length + 1)
        expect r "fi"
        pure (some c)
      | "while" => do
        let c ← loop r false
        expect r "done"
        pure (some c)
      | "until" => do
        let c ← loop r true
        expect r "done"
        pure (some c)
      | "for" => do
        let c ← each r line
        expect r "done"
        pure (some c)
      | "case" => do pure (some (← select r line))
      | "\x7b" => do
        let c ← r.list false
        expect r "\x7d"
        pure (some c)
      | _ => pure none
    return c?
  | _ => return none

def commandOf (r : InnerReaders) : Read Command := do
  let t ← token r
  let line := (← get).line
  let bound := (← get).rest.length + 1
  match t with
  | .word .. => putBack t; simpleAfter r line (bound + 1) [] [] []
  | .redirection .. => putBack t; simpleAfter r line (bound + 1) [] [] []
  | _ =>
    match ← compound? r line t with
    | none => unexpected t none
    | some c =>
      match c, ← redirections r bound [] with
      | c, [] => return c
      | .subshell line c _, rs => return .subshell line c rs
      | c, rs => return .redirected line c rs

/-! ### Lists -/

/-- The commands of a pipeline after those that have been read. -/
def pipelineAfter (r : InnerReaders) : Nat → List Command → Read (List Command)
  | 0, acc => return acc
  | bound + 1, acc => do
    match ← token r with
    | .pipe =>
      want laterCommand
      pipelineAfter r bound (acc ++ [← commandOf r])
    | t => putBack t; return acc

def pipeline (r : InnerReaders) : Read Command := do
  let t ← token r
  let negated := t.isReserved "!"
  if negated then want commandStart else putBack t
  let c ← match ← pipelineAfter r ((← get).rest.length + 1) [← commandOf r] with
    | [c] => pure c
    | cs => pure (.pipeline cs)
  return if negated then .negation c else c

/-- The pipelines that follow, each of which runs or not after the one before it. -/
def andOrAfter (r : InnerReaders) : Nat → Command → Read Command
  | 0, c => return c
  | bound + 1, c => do
    match ← token r with
    | .both =>
      want laterCommand
      andOrAfter r bound (.both c (← pipeline r))
    | .either =>
      want laterCommand
      andOrAfter r bound (.either c (← pipeline r))
    | t => putBack t; return c

/-- A list of commands after those that have been read, the last one first. The list is a line, or
goes on over line ends up to a token that cannot start a command, which is put back. -/
def listAfter (r : InnerReaders) (isLine : Bool) :
    Nat → Bool → List Command → Read (List Command)
  | 0, _, acc => return acc
  | bound + 1, mayEnd, acc => do
    want ⟨true, !isLine, true⟩
    let t ← token r
    match t with
    | .newline => documents (r.list true); return acc
    | .endOfFile =>
      documents (r.list true)
      putBack t
      return acc
    | t =>
      putBack t
      if !isLine && mayEnd && t.endsList then return acc
      else
        let line := (← get).line
        let c ← andOrAfter r ((← get).rest.length + 1) (← pipeline r)
        match ← token r with
        | .ampersand => listAfter r isLine bound true (.background line c :: acc)
        | .semicolon => listAfter r isLine bound true (c :: acc)
        | .newline =>
          putBack .newline
          listAfter r isLine bound true (c :: acc)
        | .endOfFile =>
          documents (r.list true)
          putBack .endOfFile
          return c :: acc
        | t =>
          if isLine then unexpected t none
          else
            putBack t
            return c :: acc

/-- The command that runs the commands of a list, the last one first. -/
def ofList : List Command → Command
  | [c] => c
  | cs => .sequence cs.reverse

/-- A list of commands inside another command. -/
def list (r : InnerReaders) (mayBeEmpty : Bool) : Read Command := do
  return ofList (← listAfter r false ((← get).rest.length + 2) mayBeEmpty [])

/-- The readers of commands inside commands, with a bound on how deep these lie. -/
def within : Nat → InnerReaders
  | 0 => ⟨fail "commands are nested too deeply", fun _ => fail "commands are nested too deeply"⟩
  | bound + 1 => ⟨commandOf (within bound), list (within bound)⟩

end Read

/-- A line of commands. -/
structure ScriptLine where
  command : Command
  /-- The texts that the commands read, each with its number. -/
  documents : List (Nat × Word)
  /-- Whether nothing follows. -/
  isLast : Bool
  /-- What follows. -/
  rest : Source

/-- The next line of a script; `none` at its end. -/
def Source.line? (s : Source) : Except ScriptFault (Option ScriptLine) := do
  let r := Read.within (s.rest.length + 1)
  let start : Source := { s with wanted := {}, pushed := none, pending := [], documents := [] }
  let (cs, after) ← (Read.listAfter r true (s.rest.length + 2) false []).run start
  let isLast := match after.pushed with
    | some .endOfFile => true
    | _ => false
  if cs.isEmpty && isLast then return none
  else return some ⟨Read.ofList cs, after.documents, isLast, after⟩

end UnusedDeps.Shell
