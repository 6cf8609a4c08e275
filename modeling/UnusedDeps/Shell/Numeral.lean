import UnusedDeps.Number.Rounding
import UnusedDeps.Shell.Name

/-!
# Numbers at the front of texts

Blanks and a sign may stand in front of a number, and anything behind it: what is left
is returned beside the number. Integers have a base that their first digits show;
numbers with a point have decimal or hexadecimal digits and a power, and some are
words. A reader returns the text that is left as it was, so it is a part of the text
that was read.
-/

namespace UnusedDeps.Shell

/-- Whether a text starts with a minus sign, and the text behind its sign. -/
def signAt (cs : List Char) : Bool × List Char :=
  match cs with
  | '-' :: r => (true, r)
  | '+' :: r => (false, r)
  | r => (false, r)

theorem signAt_isSuffix (cs : List Char) : (signAt cs).2 <:+ cs := by
  unfold signAt
  split
  · exact List.suffix_cons _ _
  · exact List.suffix_cons _ _
  · exact List.suffix_refl _

/-! ### Integers -/

/-- The greatest integer of sixty-four bits. -/
def maxInteger : Int := 0x7fffffffffffffff

/-- The least integer of sixty-four bits. -/
def minInteger : Int := -0x8000000000000000

/-- The greatest integer of thirty-two bits. -/
def maxShort : Nat := 0x7fffffff

/-- The number that a text of a few digits is, in front of which there is no zero. -/
def fewDigits? (s : String) : Option Nat :=
  let n := s.utf8ByteSize
  if 0 < n && n < 16 && (n = 1 || s.front ≠ '0') && s.all isDigit then
    some (s.foldl (fun n c => 10 * n + (c.toNat - '0'.toNat)) 0)
  else none

/-- The number from zero on that a text is, between margins. -/
def natural? (s : String) : Option Nat :=
  let (negative, cs) := signAt (s.toList.dropWhile isMargin)
  let ds := cs.takeWhile isDigit
  let n := number 10 ds
  if ds.isEmpty || !((cs.drop ds.length).dropWhile isMargin).isEmpty || maxShort < n
      || (negative && n ≠ 0) then none
  else some n

/-- What a text starts with as a number. -/
structure Numeral where
  negative : Bool
  magnitude : Nat
  /-- Whether there are digits. -/
  present : Bool
  rest : List Char

/-- The number that a text starts with, after margins and a sign: hexadecimal after `0x`, octal
after another zero, else decimal. -/
def numeral (cs : List Char) : Numeral :=
  let (negative, behind) := signAt (cs.dropWhile isMargin)
  let isHex : Bool := match behind with
    | '0' :: x :: d :: _ => (x = 'x' || x = 'X') && (digit? 16 d).isSome
    | _ => false
  let base : Nat := if isHex then 16 else if behind.head? = some '0' then 8 else 10
  let ds := (if isHex then behind.drop 2 else behind).takeWhile fun c => (digit? base c).isSome
  { negative
    magnitude := number base ds
    present := !ds.isEmpty
    rest := if ds.isEmpty then cs else (if isHex then behind.drop 2 else behind).drop ds.length }

/-- The number as an integer of sixty-four bits; one that is too large becomes the greatest. -/
def Numeral.clamped (n : Numeral) : Int :=
  if n.negative then max minInteger (-(n.magnitude : Int)) else min maxInteger n.magnitude

/-- The number as a word of sixty-four bits; one that is too large becomes the greatest. -/
def Numeral.word (n : Numeral) : Nat :=
  if 0xffffffffffffffff < n.magnitude then 0xffffffffffffffff
  else if n.negative then (-(n.magnitude : Int) % 0x10000000000000000).toNat else n.magnitude

/-- Whether the number is too large for an integer of sixty-four bits or for a word. -/
def Numeral.isOutside (n : Numeral) (isSigned : Bool) : Bool :=
  if isSigned then n.clamped ≠ (if n.negative then -(n.magnitude : Int) else n.magnitude)
  else 0xffffffffffffffff < n.magnitude

/-! ### Numbers with a point -/

/-- The size of a number as a text gives it. -/
inductive Quantity where
  | nan
  | infinite
  /-- Digits times a power of ten. -/
  | decimal (digits : Nat) (power : Int)
  /-- Digits times a power of two. -/
  | binary (digits : Nat) (power : Int)
  deriving DecidableEq, Repr

/-- The nearest number of a binary format; not-a-number has none. -/
def Quantity.rounded? (f : BinaryFormat) : Quantity → Option Rounded
  | .nan => none
  | .infinite => some ⟨.infinite, false⟩
  | .decimal digits power => some (f.ofDecimal digits power)
  | .binary digits power => some (f.ofBinary digits power)

/-- A number with a point at the front of a text. -/
structure PointNumeral where
  negative : Bool
  quantity : Quantity
  rest : List Char

/-- The digits of a base at the front of a text, among which a point may stand: the number that they
denote without it, the number of digits behind it, and the rest. -/
def pointedAt? (base : Nat) (cs : List Char) : Option (Nat × Nat × List Char) :=
  let isDigitHere (c : Char) : Bool := (digit? base c).isSome
  let whole := cs.takeWhile isDigitHere
  let (places, rest) := match cs.drop whole.length with
    | '.' :: r => (r.takeWhile isDigitHere, r.dropWhile isDigitHere)
    | r => ([], r)
  if (whole ++ places).isEmpty then none
  else some (number base (whole ++ places), places.length, rest)

/-- The power behind a mark at the front of a text, which is zero without one, and the rest. -/
def powerAt (mark : Char) (cs : List Char) : Int × List Char :=
  match cs with
  | c :: r =>
    let (negative, r) := signAt r
    let ds := r.takeWhile isDigit
    let n : Int := number 10 ds
    if c.toLower = mark && !ds.isEmpty then (if negative then -n else n, r.drop ds.length)
    else (0, cs)
  | [] => (0, [])

/-- The text behind a word in brackets, which may follow not-a-number. -/
def behindPayload (cs : List Char) : List Char :=
  match cs with
  | '(' :: r =>
    match r.dropWhile inName with
    | ')' :: rest => rest
    | _ => cs
  | _ => cs

/-- The number at the front of a text, behind blanks, which may have a point and a power; after `0x`
both are hexadecimal. -/
def pointNumeral? (cs : List Char) : Option PointNumeral :=
  let (negative, cs) := signAt (cs.dropWhile isMargin)
  let starts (word : String) : Bool := word.toList.isPrefixOf (cs.map Char.toLower)
  if starts "infinity" then some ⟨negative, .infinite, cs.drop 8⟩
  else if starts "inf" then some ⟨negative, .infinite, cs.drop 3⟩
  else if starts "nan" then some ⟨negative, .nan, behindPayload (cs.drop 3)⟩
  else
    match if starts "0x" then pointedAt? 16 (cs.drop 2) else none with
    | some (n, places, rest) =>
      let (power, rest) := powerAt 'p' rest
      some ⟨negative, .binary n (power - 4 * places), rest⟩
    | none =>
      (pointedAt? 10 cs).map fun (n, places, rest) =>
        let (power, rest) := powerAt 'e' rest
        ⟨negative, .decimal n (power - places), rest⟩

end UnusedDeps.Shell
