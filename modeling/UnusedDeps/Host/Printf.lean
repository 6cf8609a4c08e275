import UnusedDeps.Host.Program
import UnusedDeps.Shell.Conversion

/-!
# The programs that print their arguments

`echo` writes words between blanks. `printf` writes a format, in which every directive
takes an argument; it is more particular about directives than the shell, has numbers
of 80 bits, and says in its complaints what it complains about in quotes. What was
printed before a complaint is written before it.
-/

namespace UnusedDeps.Host

/-! ### Echo -/

/-- The byte of hexadecimal digits, and the number of characters that they take behind the mark. -/
def hexEscape? (r : List Char) : Option (List UInt8 × Nat) :=
  let ds := (r.take 2).takeWhile fun d => (Shell.digit? 16 d).isSome
  if ds.isEmpty then none else some ([(Shell.number 16 ds).toUInt8], ds.length + 1)

/-- The escape that follows a backslash in a word of `echo`. -/
def echoEscape : Shell.EscapeReader Unit := fun r =>
  match r with
  | 'x' :: ds => .ok ((hexEscape? ds).getD ([92], 0))
  | r => Shell.escape true r

/-- Whether a word holds options of `echo`. -/
def isEchoOption (s : String) : Bool :=
  match s.toList with
  | '-' :: c :: r => (c :: r).all fun c => ['n', 'e', 'E'].contains c
  | _ => false

/-- The `echo` program, which reads escapes only when it is told to. One that does what the standard
says always reads them, and has options only when the first word is `-n`. -/
def runEcho (l : Launch) : Finished :=
  let hasOptions := !isStrict l || l.args.head? = some "-n"
  let options := if hasOptions then l.args.takeWhile isEchoOption else []
  let letters := options.flatMap fun s => s.toList.tail
  let text := String.intercalate " " (l.args.drop options.length)
  let escapes := isStrict l || (letters.filter (· ≠ 'n')).getLast? = some 'e'
  let (bytes, ended) := if escapes then Shell.unescape echoEscape 0 text.toList
    else (Text.toBytes text, none)
  print l (if letters.contains 'n' || ended.isSome then bytes else bytes ++ [10]) 0

/-! ### Formats -/

/-- Why `printf` ends before its format does. -/
inductive FormatStop where
  /-- An escape ended the output. -/
  | ended
  | refused (text : String)
  deriving DecidableEq, Repr

/-- The bytes of a character that is named by its code, which has to be none that can be written
otherwise; only ASCII characters have a byte. -/
def codeEscape (mark : Char) (digits code : Nat) : Except FormatStop (List UInt8) :=
  let shown (places : Nat) (ds : List Char) : List Char :=
    List.replicate (places - ds.length) '0' ++ ds
  let ds := Nat.toDigits 16 code
  let isPlain := code = 0x24 || code = 0x40 || code = 0x60
  if (code ≤ 0x9f && !isPlain) || (0xd800 ≤ code && code ≤ 0xdfff) then
    .error (.refused ("invalid universal character name \\" ++ String.singleton mark
      ++ String.ofList (shown digits ds)))
  else if isPlain then .ok [code.toUInt8]
  else
    let text := if code < 0x10000 then '\\' :: 'u' :: shown 4 ds else '\\' :: 'U' :: shown 8 ds
    .ok (text.map fun c => Shell.byteOf (if c = 'u' then c else c.toUpper))

/-- The escape that follows a backslash in a format or in a text. -/
def formatEscape (isText : Bool) : Shell.EscapeReader FormatStop := fun r =>
  let missing : FormatStop := .refused "missing hexadecimal number in escape"
  let code (mark : Char) (digits : Nat) (r : List Char) :
      Except FormatStop (List UInt8 × Nat) := do
    let ds := (r.take digits).takeWhile fun d => (Shell.digit? 16 d).isSome
    if ds.length < digits then throw missing
    return (← codeEscape mark digits (Shell.number 16 ds), digits + 1)
  match r with
  | [] => .ok ([92], 0)
  | 'c' :: _ => .error .ended
  | '"' :: _ => .ok ([34], 1)
  | 'x' :: ds =>
    match hexEscape? ds with
    | some read => .ok read
    | none => .error missing
  | 'u' :: r => code 'u' 4 r
  | 'U' :: r => code 'U' 8 r
  | c :: _ =>
    match Shell.escapes.lookup c with
    | some b => .ok ([b], 1)
    | none =>
      if Shell.isOctal c then .ok (Shell.octalEscape isText r) else .ok ([92, Shell.byteOf c], 1)

/-- A directive of a format. -/
structure FormatDirective where
  flags : List Char
  width : Option (List Char)
  precision : Option (List Char)
  /-- What ends the directive, if anything does. -/
  conversion : Option Char
  /-- The whole directive. -/
  text : List Char

/-- A part of a format. -/
inductive FormatPart where
  | bytes (bs : List UInt8)
  /-- A text whose escapes are read. -/
  | escaped
  /-- A text as a script can hold it. -/
  | quoted
  | directive (d : FormatDirective)
  | stop (s : FormatStop)

def formatFlags : List Char := ['-', '+', ' ', '#', '0', '\'', 'I']

/-- The amount at the front of a part of a directive: a star or digits. -/
def amountAt (r : List Char) : List Char :=
  match r with
  | '*' :: _ => ['*']
  | r => r.takeWhile Shell.isDigit

/-- The directive that follows a percent sign, and the number of characters it takes. -/
def formatDirective (r : List Char) : FormatPart × Nat :=
  let flags := r.takeWhile formatFlags.contains
  let behind := r.drop flags.length
  let width := amountAt behind
  let behind := behind.drop width.length
  let (precision, behind) := match behind with
    | '.' :: p => (some (amountAt p), p.drop (amountAt p).length)
    | r => (none, r)
  let behind := behind.dropWhile fun c => ['l', 'L', 'h', 'j', 't', 'z'].contains c
  let taken := r.length - behind.length + (if behind.isEmpty then 0 else 1)
  (.directive
    { flags, precision
      width := if width.isEmpty then none else some width
      conversion := behind.head?
      text := '%' :: r.take taken }, taken)

/-- The parts of a format, whose first `skip` characters belong to the part before them. -/
def formatParts : Nat → List Char → List FormatPart
  | _, [] => []
  | skip + 1, _ :: r => formatParts skip r
  | 0, '%' :: '%' :: r => .bytes [37] :: formatParts 0 r
  | 0, '%' :: 'b' :: r => .escaped :: formatParts 0 r
  | 0, '%' :: 'q' :: r => .quoted :: formatParts 0 r
  | 0, c :: r =>
    if c = '\\' then
      match formatEscape false r with
      | .error s => [.stop s]
      | .ok (bytes, taken) => .bytes bytes :: formatParts taken r
    else if c = '%' then let (p, taken) := formatDirective r; p :: formatParts taken r
    else .bytes [Shell.byteOf c] :: formatParts 0 r

/-- The conversions that a flag does not go with. -/
def excludedBy (flag : Char) : List Char :=
  match flag with
  | '\'' => ['a', 'A', 'c', 'e', 'E', 'o', 's', 'x', 'X']
  | 'I' => ['a', 'A', 'c', 'e', 'E', 'o', 's', 'x', 'X']
  | '#' => ['c', 'd', 'i', 's', 'u']
  | '0' => ['c', 's']
  | _ => []

/-- Whether a directive has a conversion that goes with its flags and its precision. -/
def FormatDirective.isValid (d : FormatDirective) : Bool :=
  d.conversion.any fun c =>
    (['c', 's'] ++ Shell.signedConversions ++ Shell.wordConversions
      ++ Shell.pointConversions).contains c
    && !(d.flags.any fun f => (excludedBy f).contains c)
    && !(c = 'c' && d.precision.isSome)

/-! ### Arguments -/

/-- What is said of an argument that is not a number to its end. -/
def numberComplaint? (s : String) (present isOutside : Bool) (rest : List Char) : Option String :=
  if isOutside then some (quoted s ++ ": Numerical result out of range")
  else if rest.isEmpty then none
  else if present then some (quoted s ++ ": value not completely converted")
  else some (quoted s ++ ": expected a numeric value")

/-- The code of the character behind a quote, and the characters behind it. -/
def quotedCharacter? (s : String) : Option (Nat × List Char) :=
  match s.toList with
  | q :: c :: r => if q = '\'' || q = '"' then some (c.toNat, r) else none
  | _ => none

/-- `printf` at work. -/
structure FormatRun where
  printing : Printing
  args : List String
  code : Nat
  stop : Option FormatStop

namespace FormatRun

/-- The run after more is printed. -/
def write (f : FormatRun) (bytes : List UInt8) : FormatRun :=
  { f with printing := f.printing.add bytes }

/-- The run after a complaint about an argument. -/
def complain (f : FormatRun) (text : String) : FormatRun :=
  { f with printing := f.printing.complain text, code := 1 }

/-- The number that an argument gives: the code of a quoted character, else what a reader makes of
it, with what is said of it. -/
def numberOf {α : Type} (f : FormatRun) (s : String) (ofCode : Nat → α)
    (read : String → α × Option String) : α × FormatRun :=
  match quotedCharacter? s with
  | some (n, rest) =>
    if rest.isEmpty || isStrict f.printing.launch then (ofCode n, f)
    else
      let text := "warning: " ++ String.ofList rest
        ++ ": character(s) following character constant have been ignored"
      (ofCode n, { f with printing := f.printing.complain text })
  | none =>
    match read s with
    | (n, some text) => (n, f.complain text)
    | (n, none) => (n, f)

/-- The integer that an argument gives. -/
def integerOf (f : FormatRun) (isSigned : Bool) (s : String) : Int × FormatRun :=
  f.numberOf s Int.ofNat fun s =>
    let n := Shell.numeral s.toList
    (if isSigned then n.clamped else n.word,
      numberComplaint? s n.present (n.isOutside isSigned) n.rest)

/-- The number with a point that an argument gives, its sign apart. -/
def pointOf (f : FormatRun) (s : String) : (Bool × Shell.Quantity) × FormatRun :=
  f.numberOf s (fun n => (false, .decimal n 0)) fun s =>
    match Shell.pointNumeral? s.toList with
    | some n =>
      let isOutside := ((n.quantity.rounded? .extended).map Rounded.isOutside).getD false
      ((n.negative, n.quantity), numberComplaint? s true isOutside n.rest)
    | none => ((false, .decimal 0 0), numberComplaint? s false false s.toList)

/-- The run with its next argument taken, if one is left. -/
def take (f : FormatRun) : Option String × FormatRun :=
  (f.args.head?, { f with args := f.args.tail })

/-- The number that a directive holds or takes; a star without an argument stands for zero. -/
def takeAmount (f : FormatRun) (text : List Char) : Int × String × FormatRun :=
  if text = ['*'] then
    match f.take with
    | (some s, f) => let (n, f) := f.integerOf true s; (n, s, f)
    | (none, f) => (0, "", f)
  else (Shell.number 10 text, "", f)

/-- The run after a directive whose numbers are known. -/
def convert (f : FormatRun) (d : FormatDirective) (c : Char) (width : Int)
    (precision : Option Nat) : FormatRun :=
  let flags := if width < 0 then '-' :: d.flags else d.flags
  let width := width.natAbs
  let (s?, f) := f.take
  let s := s?.getD ""
  let cut (bytes : List UInt8) : List UInt8 := (precision.map bytes.take).getD bytes
  let (bytes, f) : List UInt8 × FormatRun :=
    if c = 's' then (Shell.padded flags width (cut (Text.toBytes s)) false, f)
    else if c = 'c' then (Shell.padded flags width [((Text.toBytes s).head?).getD 0] false, f)
    else if Shell.pointConversions.contains c then
      let ((negative, q), f) := if s?.isSome then f.pointOf s else ((false, .decimal 0 0), f)
      (Shell.pointBytes .extended flags width precision c negative q, f)
    else
      let (n, f) := if s?.isSome then f.integerOf (Shell.signedConversions.contains c) s else (0, f)
      (Shell.integerBytes flags width precision c (n < 0) n.natAbs, f)
  if Shell.maxShort < width || precision.any (Shell.maxShort < ·) then
    { f with
      stop := some (.refused
        "cannot perform formatted output: Value too large for defined data type") }
  else f.write bytes

def perform (f : FormatRun) (d : FormatDirective) : FormatRun :=
  let refuse (f : FormatRun) (text : String) : FormatRun := { f with stop := some (.refused text) }
  let isOutside (text : List Char) (n : Int) : Bool :=
    text = ['*'] && (n < -(Shell.maxShort : Int) - 1 || Shell.maxShort < n)
  let widthText := d.width.getD []
  let (width, widthArg, f) := f.takeAmount widthText
  if isOutside widthText width then refuse f ("invalid field width: " ++ quoted widthArg)
  else
    let precisionText := d.precision.getD []
    let (precision, precisionArg, f) := f.takeAmount precisionText
    if isOutside precisionText precision && 0 < precision then
      refuse f ("invalid precision: " ++ quoted precisionArg)
    else
      match d.conversion with
      | some c =>
        if d.isValid then
          let precision := if d.precision.isNone || precision < 0 then none else some precision.toNat
          f.convert d c width precision
        else refuse f (String.ofList d.text ++ ": invalid conversion specification")
      | none => refuse f (String.ofList d.text ++ ": invalid conversion specification")

def step (f : FormatRun) (p : FormatPart) : FormatRun :=
  if f.stop.isSome then f
  else
    match p with
    | .bytes bs => f.write bs
    | .stop s => { f with stop := some s }
    | .escaped =>
      let (s, f) := f.take
      let (bytes, ended) := Shell.unescape (formatEscape true) 0 (s.getD "").toList
      { f.write bytes with stop := ended }
    | .quoted =>
      let (s, f) := f.take
      f.write ((s.map fun s => Text.toBytes (quotedName s)).getD [])
    | .directive d => f.perform d

def takesArgument : FormatPart → Bool
  | .bytes _ => false
  | .stop _ => false
  | _ => true

/-- The run after the uses of a format until no argument is left, one if it takes none, and at most
as many as the bound says. -/
def steps (parts : List FormatPart) : Nat → FormatRun → FormatRun
  | 0, f => f
  | bound + 1, f =>
    let after := parts.foldl step f
    if after.stop.isSome || after.args.isEmpty || !parts.any takesArgument then after
    else steps parts bound after

end FormatRun

/-- The `printf` program. -/
def runPrintf (l : Launch) : Finished :=
  match if l.args.head? = some "--" then l.args.tail else l.args with
  | [] => refuse l ("missing operand" ++ hint l) 1
  | format :: args =>
    let parts := formatParts 0 format.toList
    let f := FormatRun.steps parts (args.length + 1) ⟨{ launch := l }, args, 0, none⟩
    match f.stop, f.args with
    | some .ended, _ => f.printing.finish 0
    | some (.refused text), _ => (f.printing.complain text).finish 1
    | none, s :: _ =>
      let text := "warning: ignoring excess arguments, starting with " ++ quoted s
      (f.printing.complain text).finish f.code
    | none, [] => f.printing.finish f.code

end UnusedDeps.Host
