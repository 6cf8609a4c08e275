import UnusedDeps.Shell.Conversion
import UnusedDeps.Text.Bytes

/-!
# Formatted output of the shell

A percent sign in a format starts a directive, which takes an argument; all else but
escapes stands for itself. A format is used again while arguments are left. Arguments
that are no numbers are complained about and converted as far as they are numbers; a
directive that is none ends the output.
-/

namespace UnusedDeps.Shell

/-- What is wrong with a format or an argument of it. -/
inductive FormatFault where
  /-- An argument that starts with no number. -/
  | noNumber (argument : String)
  /-- An argument that goes on behind its number. -/
  | notOnlyNumber (argument : String)
  | outOfRange (argument : String)
  /-- A directive that does not end as any does. -/
  | badDirective (text : String)
  /-- A directive that does not end at all. -/
  | openDirective
  /-- A width or a precision that is no number of the machine. -/
  | tooLong
  deriving DecidableEq, Repr

def FormatFault.message : FormatFault → String
  | .noNumber s => s ++ ": expected numeric value"
  | .notOnlyNumber s => s ++ ": not completely converted"
  | .outOfRange s => s ++ ": Numerical result out of range"
  | .badDirective s => s ++ ": invalid directive"
  | .openDirective => "missing format character"
  | .tooLong => "xvsnprintf failed"

/-- A number in a directive. -/
inductive Amount where
  | fixed (n : Nat)
  /-- The number is an argument. -/
  | argument
  /-- A number with a star behind it, and the text from the star up to the conversion; such a
  directive is written as it is. -/
  | starred (n : Nat) (text : List Char)
  deriving DecidableEq, Repr

/-- A part of a format that takes an argument. -/
structure Directive where
  flags : List Char
  width : Amount
  precision : Option Amount
  conversion : Char
  deriving DecidableEq, Repr

/-- A part of a format. -/
inductive Segment where
  | bytes (bs : List UInt8)
  | directive (d : Directive)
  /-- What is no directive. -/
  | broken (fault : FormatFault)
  deriving DecidableEq, Repr

/-! ### Reading a format -/

/-- The characters of an amount at the front of a part of a directive. -/
def amountText (r : List Char) : List Char :=
  match r with
  | '*' :: _ => ['*']
  | r => r.takeWhile fun c => isDigit c || c = '*'

/-- The amount that stands in front of a conversion. -/
def amount (r toConversion : List Char) : Amount :=
  let ds := r.takeWhile isDigit
  match r with
  | '*' :: _ => .argument
  | _ =>
    if (amountText r).length = ds.length then .fixed (number 10 ds)
    else .starred (number 10 ds) (toConversion.drop ds.length)

/-- The characters that end a directive. -/
def conversions : List Char :=
  ['b', 'c', 's'] ++ signedConversions ++ wordConversions ++ pointConversions

/-- The directive that follows a percent sign, and the number of characters it takes. -/
def directive (r : List Char) : Segment × Nat :=
  let flags := r.takeWhile fun c => "#-+ 0".toList.contains c
  let atWidth := r.drop flags.length
  let behind := atWidth.drop (amountText atWidth).length
  let atPrecision? := match behind with
    | '.' :: p => some p
    | _ => none
  let taken := flags.length + (amountText atWidth).length
    + ((atPrecision?.map fun p => 1 + (amountText p).length).getD 0)
  let upTo (at? : List Char) : List Char := at?.take (at?.length - (r.length - taken))
  match r.drop taken with
  | c :: _ =>
    if conversions.contains c then
      let width := amount atWidth (upTo atWidth)
      let precision := atPrecision?.map fun p => amount p (upTo p)
      (.directive ⟨flags, width, precision, c⟩, taken + 1)
    else (.broken (.badDirective (String.ofList ('%' :: r.take (taken + 1)))), r.length)
  | [] => (.broken .openDirective, r.length)

/-- The parts of a format, whose first `skip` characters belong to the part before them. -/
def segments : Nat → List Char → List Segment
  | _, [] => []
  | skip + 1, _ :: r => segments skip r
  | 0, '%' :: '%' :: r => .bytes [37] :: segments 0 r
  | 0, c :: r =>
    if c = '\\' then
      match escape false r with
      | .error _ => []
      | .ok (bytes, taken) => .bytes bytes :: segments taken r
    else if c = '%' then let (s, taken) := directive r; s :: segments taken r
    else .bytes [byteOf c] :: segments 0 r

/-! ### Arguments -/

/-- What is wrong with an argument that is not a number to its end. -/
def conversionFault? (s : String) (present isOutside : Bool) (rest : List Char) :
    Option FormatFault :=
  if !rest.isEmpty then some (if present then .notOnlyNumber s else .noNumber s)
  else if isOutside then some (.outOfRange s)
  else none

/-- The number that an argument gives as the code of the character behind a quote. -/
def quotedCode? (s : String) : Option Nat :=
  match s.toList with
  | q :: r => if q = '\'' || q = '"' then some ((r.head?.map Char.toNat).getD 0) else none
  | [] => none

/-- The integer that an argument gives, its sign apart, and what is wrong with it. -/
def integerArgument (isSigned : Bool) (s : String) : Int × Option FormatFault :=
  match quotedCode? s with
  | some n => (n, none)
  | none =>
    let n := numeral s.toList
    (if isSigned then n.clamped else n.word,
      conversionFault? s n.present (n.isOutside isSigned) n.rest)

/-- The number with a point that an argument gives, its sign apart, and what is wrong with it. -/
def pointArgument (s : String) : Bool × Quantity × Option FormatFault :=
  match quotedCode? s, pointNumeral? s.toList with
  | some n, _ => (false, .decimal n 0, none)
  | none, some n =>
    let isOutside := ((n.quantity.rounded? .double).map Rounded.isOutside).getD false
    (n.negative, n.quantity, conversionFault? s true isOutside n.rest)
  | none, none => (false, .decimal 0 0, conversionFault? s false false s.toList)

/-! ### Printing -/

/-- Why no more is printed. -/
inductive Halt where
  /-- An escape ended the output. -/
  | ended
  | broken (fault : FormatFault)
  deriving DecidableEq, Repr

/-- What has been printed. -/
structure Printed where
  /-- What has been written, the last part first. -/
  parts : List (List UInt8)
  /-- What is wrong with arguments. -/
  faults : List FormatFault
  left : List String
  halt : Option Halt

namespace Printed

/-- The next argument, which is empty when none is left. -/
def take (p : Printed) : String × Printed := (p.left.head?.getD "", { p with left := p.left.tail })

/-- The bytes that have been written. -/
def bytes (p : Printed) : List UInt8 := p.parts.reverse.flatten

def write (p : Printed) (bytes : List UInt8) : Printed := { p with parts := bytes :: p.parts }

theorem bytes_write (p : Printed) (bytes : List UInt8) :
    (p.write bytes).bytes = p.bytes ++ bytes := by
  simp [write, Printed.bytes]

/-- Perhaps a fault of an argument. -/
def note (p : Printed) (fault : Option FormatFault) : Printed :=
  { p with faults := p.faults ++ fault.toList }

/-- The number that a directive holds or takes; an argument is cut to thirty-two bits. -/
def takeAmount (p : Printed) : Amount → Int × Printed
  | .fixed n => (n, p)
  | .starred n _ => (n, p)
  | .argument =>
    let (s, p) := p.take
    let (n, fault) := integerArgument true s
    (Int.bmod n 0x100000000, p.note fault)

/-- Whether a directive holds a number that the machine has not. -/
def isTooLong (d : Directive) : Bool :=
  let exceeds : Amount → Bool
    | .fixed n => maxShort < n
    | .starred n _ => maxShort < n
    | .argument => false
  exceeds d.width || d.precision.any exceeds

/-- The flags of a directive that is written as it is. -/
def shownFlags (flags : List Char) : List Char :=
  let first (cs : List Char) : List Char := (cs.filter flags.contains).take 1
  first ['#'] ++ first ['+', ' '] ++ first ['-', '0']

/-- The text of a directive that is written as it is; `none` for those that are not. -/
def shown? (flags : List Char) (width : Nat) (d : Directive) : Option (List Char) :=
  let start := '%' :: shownFlags flags ++ (if width = 0 then [] else Nat.toDigits 10 width)
  let ending :=
    if d.conversion = 'b' then ['s']
    else if (signedConversions ++ wordConversions).contains d.conversion then ['l', d.conversion]
    else [d.conversion]
  match d.width, d.precision with
  | .starred _ text, _ => some (start ++ text ++ ending)
  | _, some (.starred n text) => some (start ++ '.' :: Nat.toDigits 10 n ++ text ++ ending)
  | _, _ => none

/-- The bytes that a conversion of an argument gives, what is wrong with it, and whether an escape
ended the output. -/
def converted (flags : List Char) (width : Nat) (precision : Option Nat) (conversion : Char)
    (s : String) : List UInt8 × Option FormatFault × Bool :=
  let cut (bytes : List UInt8) : List UInt8 := (precision.map bytes.take).getD bytes
  match conversion with
  | 's' => (padded flags width (cut (Text.toBytes s)) false, none, false)
  | 'b' =>
    let (bytes, ended) := unescape (escape true) 0 s.toList
    (padded flags width (cut bytes) false, none, ended.isSome)
  | 'c' => (padded flags width [((Text.toBytes s).head?).getD 0] false, none, false)
  | c =>
    if pointConversions.contains c then
      let (negative, q, fault) := pointArgument s
      (pointBytes .double flags width precision c negative q, fault, false)
    else
      let (n, fault) := integerArgument (signedConversions.contains c) s
      (integerBytes flags width precision c (n < 0) n.natAbs, fault, false)

def convert (p : Printed) (d : Directive) : Printed :=
  let (width, p) := p.takeAmount d.width
  let flags := if width < 0 then '-' :: d.flags else d.flags
  let width := width.natAbs
  let (precision, p) := match d.precision with
    | none => (none, p)
    | some a =>
      let (n, p) := p.takeAmount a
      (if n < 0 then none else some n.toNat, p)
  let (s, p) := p.take
  let isLong := isTooLong d
  let (bytes, fault, ended) := converted flags (if isLong then 0 else width)
    (if isLong then none else precision) d.conversion s
  let p := p.note fault
  if isLong then { p with halt := some (.broken .tooLong) }
  else
    let p := p.write (((shown? flags width d).map fun cs => cs.map byteOf).getD bytes)
    if ended then { p with halt := some .ended } else p

/-- What has been printed after a part of a format. -/
def print (p : Printed) (s : Segment) : Printed :=
  if p.halt.isSome then p
  else
    match s with
    | .bytes bs => p.write bs
    | .broken fault => { p with halt := some (.broken fault) }
    | .directive d => p.convert d

end Printed

/-- Whether a part of a format takes an argument. -/
def Segment.isDirective : Segment → Bool
  | .directive _ => true
  | _ => false

/-- The uses of a format until no argument is left, one if it takes none, and at most as many as the
bound says. -/
def printAll (parts : List Segment) : Nat → Printed → Printed
  | 0, p => p
  | bound + 1, p =>
    let after := parts.foldl Printed.print p
    if after.halt.isSome || after.left.isEmpty || !parts.any Segment.isDirective then after
    else printAll parts bound after

/-- What `printf` prints. -/
def printf (format : String) (args : List String) : Printed :=
  printAll (segments 0 format.toList) (args.length + 1) ⟨[], [], args, none⟩

end UnusedDeps.Shell
