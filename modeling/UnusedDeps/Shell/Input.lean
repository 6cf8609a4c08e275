import UnusedDeps.Shell.Options

/-!
# Reading lines

`read` takes a line from the input, splits it into as many fields as there are
variables, and leaves the rest of the line to the last of them. A backslash takes
the meaning from the character behind it, and joins lines, unless it is to stand
for itself.
-/

namespace UnusedDeps.Shell

namespace Input

/-- The characters of a line, and what is known about its end. -/
structure Line where
  glyphs : List Glyph
  /-- How many bytes were read. -/
  taken : Nat
  /-- Whether the line has an end. -/
  isComplete : Bool

/-- The line that starts with a character and goes on with another line. -/
def Line.after (taken : Nat) (gs : List Glyph) (l : Line) : Line :=
  { l with glyphs := gs ++ l.glyphs, taken := taken + l.taken }

/-- The line at the front of bytes; `isEscaped` tells whether a backslash stands before them. -/
def line (raw : Bool) : Bool → List UInt8 → Line
  | _, [] => ⟨[], 0, false⟩
  | isEscaped, b :: r =>
    let c := Char.ofNat b.toNat
    if b = 0 then (line raw isEscaped r).after 1 []
    else if isEscaped then
      if c = '\n' then (line raw false r).after 1 [] else (line raw false r).after 1 [⟨c, true⟩]
    else if c = '\\' && !raw then (line raw true r).after 1 []
    else if c = '\n' then ⟨[], 1, true⟩
    else (line raw false r).after 1 [⟨c, false⟩]

def isSeparator (separators : List Char) (g : Glyph) : Bool :=
  !g.quoted && separators.contains g.char

def isBlankIn (separators : List Char) (g : Glyph) : Bool :=
  isSeparator separators g && isBlankSeparator g.char

def textOf (gs : List Glyph) : String := String.ofList (gs.map Glyph.char)

/-- How much of the rest of a line is left out at its end, given what is left out of what is before
it: blanks are, and one separator among them. -/
def omitted (separators : List Char) (sofar : Nat) (afterBlank : Bool) : List Glyph → Nat
  | [] => sofar
  | g :: r =>
    if isBlankIn separators g then
      if sofar = 0 then omitted separators 1 afterBlank r
      else omitted separators (sofar + 1) afterBlank r
    else if isSeparator separators g && afterBlank && 0 < sofar then
      omitted separators (sofar + 1) false r
    else omitted separators 0 false r

/-- The last field of a line: all of it but what separates it from nothing. -/
def lastField (separators : List Char) (gs : List Glyph) : String :=
  let field := gs.takeWhile fun g => !isSeparator separators g
  match gs.drop field.length with
  | [] => textOf field
  | g :: r =>
    textOf (gs.take (gs.length - omitted separators 1 (isBlankIn separators g) r))

/-- The characters behind the end of a field, whose first character ended it. -/
def behind (separators : List Char) (gs : List Glyph) : List Glyph :=
  let isBlank := isBlankIn separators
  match gs with
  | [] => []
  | g :: r =>
    let r := r.dropWhile isBlank
    match isBlank g, r with
    | true, h :: t => if isSeparator separators h then t.dropWhile isBlank else h :: t
    | _, r => r

/-- The fields of a line, at most as many as there are variables. -/
def fields (separators : List Char) : Nat → List Glyph → List String
  | 0, _ => []
  | n + 1, gs =>
    let gs := gs.dropWhile (isBlankIn separators)
    if n = 0 then [lastField separators gs]
    else
      let field := gs.takeWhile fun g => !isSeparator separators g
      match gs.drop field.length with
      | [] => [textOf field]
      | rest => textOf field :: fields separators n (behind separators rest)

end Input

namespace Act

/-- The line that comes next from a descriptor, looked for in so many bytes and then in more of them
until it is complete; at most as often as the bound says. -/
def nextLine (s : Session) (raw : Bool) (stream : Nat) : Nat → Nat → Input.Line
  | 0, _ => Input.line raw false ((s.machine.unread? stream).getD [])
  | bound + 1, count =>
    let bytes := (s.machine.front? stream count).getD []
    let line := Input.line raw false bytes
    if line.isComplete || bytes.length < count then line
    else nextLine s raw stream bound (16 * count)

def readLine (args : List String) : Act Unit := do
  let (options, names) ← match args with
    | "-p" :: _ :: rest => letters ['r'] rest
    | args => letters ['r'] args
  if names.isEmpty then fail "arg count"
  let s ← get
  let number := Mapping.get? s.descriptors 0
  let line := (number.map fun n => nextLine s (options.contains 'r') n 4 256).getD ⟨[], 0, false⟩
  match number with
  | some n =>
    modify fun s => { s with machine := s.machine.advance n line.taken (!line.isComplete) }
  | none => pure ()
  let values := Input.fields s.separators names.length line.glyphs
  names.zipIdx.forM fun n => assignNamed n.1 ((values[n.2]?).getD "")
  setStatus (if line.isComplete then 0 else 1)

end Act

end UnusedDeps.Shell
