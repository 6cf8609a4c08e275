import UnusedDeps.Shell.Token

/-!
# Reading words

A word is read piece by piece. Quotes and backslashes take the meaning from the
characters that they protect, and a dollar sign starts what is expanded. The
characters have their meanings in a place: outside quotes, inside them, in a
document, or in arithmetic; the word beside a parameter is such a place again.
How commands are read is a parameter, since a word may hold commands.
-/

namespace UnusedDeps.Shell

/-- How a piece of a word is quoted by where it stands. -/
inductive Quoting where
  | bare
  | double
  | document
  | arithmetic
  deriving DecidableEq, Repr

/-- The surroundings in which pieces are read. -/
structure Frame where
  quoting : Quoting
  /-- Whether the pieces stand beside a parameter in braces. -/
  brace : Bool := false
  /-- Whether a quote has been opened beside a parameter that is itself quoted. -/
  inner : Bool := false
  /-- How many brackets of arithmetic are open. -/
  depth : Nat := 0
  /-- Whether nothing is expanded. -/
  plain : Bool := false
  /-- The end of the document. -/
  mark : Option Pending := none

/-- Whether pieces are quoted by their place. -/
def Frame.isQuoted (f : Frame) : Bool := f.quoting ≠ .bare

/-- The pieces, the last one first, with text added. -/
def addText (t : String) (quoted : Bool) : List Piece → List Piece
  | .text u q :: rest =>
    if q = quoted then .text (u ++ t) q :: rest else .text t quoted :: .text u q :: rest
  | pieces => .text t quoted :: pieces

def addChar (c : Char) (quoted : Bool) (acc : List Piece) : List Piece :=
  addText (String.singleton c) quoted acc

/-- The pieces with those of a quotation, which makes a field also when it is empty. A value or an
output alone does so by itself; all arguments alone do so only when there are any. -/
def addQuotation (inside : Word) (acc : List Piece) : List Piece :=
  match inside with
  | [.parameter _ .value true] => inside ++ acc
  | [.output _ true] => inside ++ acc
  | [.arithmetic _ true] => inside ++ acc
  | _ => inside.foldl (fun acc p =>
      match p with
      | .text s q => addText s q acc
      | p => p :: acc) (addText "" true acc)

namespace Read

/-- Whether the document ends before the next line; its end is dropped then. -/
def atMark (mark : Option Pending) : Read Bool := do
  match mark with
  | none => return false
  | some m =>
    let s ← get
    let rest := if m.dropTabs then s.rest.dropWhile (· = '\t') else s.rest
    let behind := rest.drop m.mark.length
    if m.mark.isPrefixOf rest && (behind.head?.all (· = '\n')) then
      set { s with rest := behind.drop 1, line := if behind.isEmpty then s.line else s.line + 1 }
      return true
    else
      set { s with rest := rest }
      return false

/-- The characters that a backslash protects in a place. -/
def isProtected (f : Frame) (c : Char) : Bool :=
  f.quoting = .bare || c = '\\' || c = '$' || (c = Char.ofNat 96) || (c = '}' && f.brace)
    || (c = '"' && (f.mark.isNone || f.brace))

/-! ### Parameters -/

/-- Whether a character names a parameter by itself. -/
def isSpecial (c : Char) : Bool := isDigit c || "!#$*-?@".toList.contains c

/-- The parameter that a character names by itself. -/
def special (c : Char) : Parameter :=
  match c with
  | '@' => .arguments true
  | '*' => .arguments false
  | '#' => .count
  | '?' => .status
  | '$' => .process
  | '!' => .background
  | '-' => .options
  | c => .positional (c.toNat - '0'.toNat)

/-- The longest text of characters of a kind, with lines joined, at most as long as the bound
says. -/
def takeWhile (p : Char → Bool) : Nat → Read (List Char)
  | 0 => return []
  | bound + 1 => do
    match ← peek with
    | some c => if p c then skip; return c :: (← takeWhile p bound) else return []
    | none => return []

/-- The parameter with a name or a number; `none` when neither follows. -/
def named? : Read (Option Parameter) := do
  let bound := (← get).rest.length
  match ← peek with
  | none => return none
  | some c =>
    if startsName c then
      return some (.variable (String.ofList (← takeWhile inName bound)))
    else if isDigit c then
      return some (.positional (number 10 (← takeWhile isDigit bound)))
    else return none

/-- The choice that a character makes for the word behind it. -/
def choice? (c : Char) : Option Choice :=
  match c with
  | '-' => some .default
  | '=' => some .assign
  | '?' => some .demand
  | '+' => some .alternative
  | _ => none

/-- The fault of a text that ends too early. -/
def unfinished {α : Type} (f : Frame) : Read α :=
  if f.quoting = .arithmetic then fail "Missing '))'"
  else if f.quoting = .double && f.mark.isNone then fail "Unterminated quoted string"
  else fail "Missing '\x7d'"

/-- The use of a parameter in braces, from behind its name on; how the word beside it is read is a
parameter. -/
def use (pieces : Frame → Read Word) (f : Frame) : Read Use := do
  let quoting := if f.quoting = .arithmetic then .double else f.quoting
  let beside : Frame := { quoting, brace := true, mark := f.mark }
  let c ← peek
  skipUncounted
  let (orEmpty, c) ← if c = some ':' then do
      let d ← peek
      skipUncounted
      pure (true, d)
    else pure (false, c)
  match c with
  | some '}' =>
    if orEmpty then return .last (← pieces beside) else return .value
  | some c =>
    match choice? c with
    | some ch => return .word ch orEmpty (← pieces beside)
    | none =>
      if !orEmpty && (c = '#' || c = '%') then
        let longest ← accept c
        return .trim (c = '%') longest (← pieces { beside with quoting := .bare })
      else
        let _ ← pieces beside
        return .invalid
  | none => unfinished beside

/-- The parameter in braces, from behind the opening brace on. -/
def braced (pieces : Frame → Read Word) (f : Frame) : Read Piece := do
  let quoted := f.isQuoted
  let invalid : Read Piece := do
    let quoting := if f.quoting = .arithmetic then .double else f.quoting
    let _ ← pieces { quoting, brace := true, mark := f.mark }
    return .parameter .count .invalid quoted
  match ← named? with
  | some p => return .parameter p (← use pieces f) quoted
  | none =>
    match ← peek with
    | some '#' =>
      skip
      let before ← get
      match ← named? with
      | some p =>
        if ← accept '}' then return .parameter p .length quoted
        else invalid
      | none =>
        match ← peek with
        | none => return .parameter .count (← use pieces f) quoted
        | some c =>
          skip
          let isLength ← if c = '}' then pure false else accept '}'
          if isLength then
            if isSpecial c then return .parameter (special c) .length quoted
            else return .parameter .count .invalid quoted
          else
            set before
            return .parameter .count (← use pieces f) quoted
    | some c =>
      if isSpecial c then
        skip
        return .parameter (special c) (← use pieces f) quoted
      else
        if c ≠ '\x7d' then skipUncounted
        invalid
    | none => invalid

/-! ### Commands in words -/

/-- The script inside backquotes, without the backslashes that only hide its own quotes. -/
def backquoted (quoted : Bool) : Nat → List Char → Read (List Char)
  | 0, _ => fail "EOF in backquote substitution"
  | bound + 1, acc => do
    match ← peek with
    | none => fail "EOF in backquote substitution"
    | some c =>
      skip
      if c = Char.ofNat 96 then return acc.reverse
      else if c = '\\' then
        match ← peekRaw with
        | none => fail "EOF in backquote substitution"
        | some d =>
          skip
          let hidden := d = '\\' || d = Char.ofNat 96 || d = '$' || (quoted && d = '"')
          backquoted quoted bound (if hidden then d :: acc else d :: '\\' :: acc)
      else backquoted quoted bound (c :: acc)

/-- The command that is another text than that of the source. -/
def inside (body : Read Command) (text : List Char) : Read Command := do
  let s ← get
  set { s with rest := text, wanted := {}, pushed := none, pending := [] }
  let c ← body
  modify fun t =>
    { t with
      rest := s.rest
      line := s.line
      wanted := s.wanted
      pushed := s.pushed
      pending := s.pending }
  return c

/-- The command before a closing bracket, which the reader of the command has put back. -/
def bracketed (body : Read Command) : Read Command := do
  let s ← get
  set { s with wanted := {}, pushed := none, pending := [] }
  let c ← body
  match (← get).pushed.getD .endOfFile with
  | .closing => pure ()
  | t => unexpected t (some .closing)
  modify fun t =>
    { t with
      wanted := s.wanted
      pushed := s.pushed
      pending := s.pending
      documents := t.pending.map (fun p => (p.id, ([] : Word))) ++ t.documents }
  return c

/-! ### Pieces -/

/-- What follows a dollar sign. -/
def dollar (body : Read Command) (pieces : Frame → Read Word) (f : Frame)
    (acc : List Piece) : Read (List Piece) := do
  let quoted := f.isQuoted
  match ← peek with
  | none => return addChar '$' quoted acc
  | some c =>
    if f.plain then return addChar '$' quoted acc
    else if c = '(' then
      skip
      if ← accept '(' then
        return .arithmetic (← pieces { quoting := .arithmetic, mark := f.mark }) quoted :: acc
      else return .output (← bracketed body) quoted :: acc
    else if c = '\x7b' then
      skip
      return (← braced pieces f) :: acc
    else if startsName c then
      let name ← takeWhile inName (← get).rest.length
      return .parameter (.variable (String.ofList name)) .value quoted :: acc
    else if isSpecial c then
      skip
      return .parameter (special c) .value quoted :: acc
    else return addChar '$' quoted acc

/-- Whether a character ends a word outside quotes. -/
def endsWord (c : Char) : Bool := "\n \t;&|<>()".toList.contains c

/-- The pieces that follow, after those that have been read, the last one first; at most as many
as the bound says. -/
def piecesAfter (body : Read Command) : Nat → Frame → List Piece → Read Word
  | 0, _, acc => return acc.reverse
  | bound + 1, f, acc => do
    let pieces : Frame → Read Word := fun g => piecesAfter body bound g []
    let go := piecesAfter body bound
    let quoted := f.isQuoted
    match ← peek with
    | none =>
      if f.brace || f.quoting = .arithmetic || f.quoting = .double then unfinished f
      else return acc.reverse
    | some c =>
      if f.quoting = .bare && !f.brace && endsWord c then return acc.reverse
      else
        skip
        match c with
        | '\n' =>
          if ← atMark f.mark then
            if f.brace then unfinished f else return (addChar c quoted acc).reverse
          else go f (addChar c quoted acc)
        | '\\' =>
          match ← peekRaw with
          | none => go f (addChar c true acc)
          | some d =>
            skip
            if isProtected f d then go f (addChar d true acc)
            else go f (addChar d true (addChar c true acc))
        | '\'' =>
          if f.quoting = .bare then
            match ← until? '\'' with
            | some s => go f (addText s true acc)
            | none => fail "Unterminated quoted string"
          else go f (addChar c quoted acc)
        | '"' =>
          match f.quoting with
          | .bare =>
            let inside ← pieces { quoting := .double, plain := f.plain, mark := f.mark }
            go f (addQuotation inside acc)
          | .arithmetic => go f (addChar c quoted acc)
          | _ =>
            if f.brace then go { f with inner := !f.inner } acc
            else if f.quoting = .double then return acc.reverse
            else go f (addChar c quoted acc)
        | '$' => go f (← dollar body pieces f acc)
        | '}' => if f.brace && !f.inner then return acc.reverse else go f (addChar c quoted acc)
        | '(' =>
          if f.quoting = .arithmetic then go { f with depth := f.depth + 1 } (addChar c quoted acc)
          else go f (addChar c quoted acc)
        | ')' =>
          if f.quoting ≠ .arithmetic then go f (addChar c quoted acc)
          else if f.depth > 0 then go { f with depth := f.depth - 1 } (addChar c quoted acc)
          else
            match ← peek with
            | some ')' => skip; return acc.reverse
            | _ => go f (addChar c quoted acc)
        | c =>
          if c = Char.ofNat 96 && !f.plain then
            let script ← backquoted quoted (← get).rest.length.succ []
            go f (.output (← inside body script) quoted :: acc)
          else go f (addChar c quoted acc)

def pieces (body : Read Command) (f : Frame) : Read Word := do
  piecesAfter body ((← get).rest.length + 1) f []

/-! ### Documents -/

/-- The lines before the end of a document. -/
def linesBefore (mark : Pending) : Nat → List Char → Read (List Char)
  | 0, acc => return acc.reverse
  | bound + 1, acc => do
    if ← atMark (some mark) then return acc.reverse
    else
      let s ← get
      let line := s.rest.takeWhile (· ≠ '\n')
      match s.rest.drop line.length with
      | [] => set { s with rest := [] }; return acc.reverse ++ line
      | _ :: r =>
        set { s with rest := r, line := s.line + 1 }
        linesBefore mark bound ('\n' :: (line.reverse ++ acc))

def documents (body : Read Command) : Read Unit := do
  let pending := (← get).pending
  modify fun s => { s with pending := [] }
  pending.forM fun p => do
    let w ← if p.quoted then do
        let text ← linesBefore p ((← get).rest.length + 1) []
        pure [.text (String.ofList text) true]
      else do
        match ← atMark (some p) with
        | true => pure []
        | false => pieces body { quoting := .document, mark := some p }
    modify fun s => { s with documents := (p.id, w) :: s.documents }

end Read

end UnusedDeps.Shell
