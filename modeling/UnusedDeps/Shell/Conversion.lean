import UnusedDeps.Number.Hexadecimal
import UnusedDeps.Number.Places
import UnusedDeps.Shell.Escape
import UnusedDeps.Shell.Numeral

/-!
# Conversions of formatted output

A directive of a format has flags, a width and perhaps a precision. This module says
how a text, an integer and a number with a point are written under them. A text is
filled up to the width with blanks on the left, on the right under the flag `-`, or
with zeros behind the sign under the flag `0`.
-/

namespace UnusedDeps.Shell

/-- The greatest number of blanks or zeros that fill a text up. -/
def maxPadding : Nat := 0x400000

/-- Blanks or zeros that fill a text up. -/
def padding (n : Nat) (byte : UInt8) : List UInt8 := List.replicate (min n maxPadding) byte

def padded (flags : List Char) (width : Nat) (bytes : List UInt8) (zeros : Bool) : List UInt8 :=
  let missing := width - bytes.length
  if flags.contains '-' then bytes ++ padding missing 32
  else if zeros then
    let isSign (b : UInt8) : Bool := b = 45 || b = 43 || b = 32
    let sign := bytes.takeWhile isSign
    let mark : List UInt8 := match bytes.drop sign.length with
      | 48 :: x :: _ => if x = 120 || x = 88 then [48, x] else []
      | _ => []
    sign ++ mark ++ padding missing 48 ++ bytes.drop (sign.length + mark.length)
  else padding missing 32 ++ bytes

/-- A text that is as long as the width is not filled up. -/
theorem padded_of_le (flags : List Char) (width : Nat) (bytes : List UInt8)
    (h : width ≤ bytes.length) : padded flags width bytes false = bytes := by
  have none : width - bytes.length = 0 := by omega
  simp [padded, padding, none]

def signOf (flags : List Char) (negative : Bool) : List Char :=
  if negative then ['-']
  else if flags.contains '+' then ['+']
  else if flags.contains ' ' then [' ']
  else []

/-! ### Integers -/

def signedConversions : List Char := ['d', 'i']

/-- The conversions of integers without sign. -/
def wordConversions : List Char := ['o', 'u', 'x', 'X']

def pointConversions : List Char := ['a', 'A', 'e', 'E', 'f', 'F', 'g', 'G']

def integerDigits (conversion : Char) (n : Nat) : List Char :=
  match conversion with
  | 'o' => Nat.toDigits 8 n
  | 'x' => Nat.toDigits 16 n
  | 'X' => (Nat.toDigits 16 n).map Char.toUpper
  | _ => Nat.toDigits 10 n

def integerText (flags : List Char) (precision : Option Nat) (conversion : Char)
    (negative : Bool) (n : Nat) : List Char :=
  let ds := if n = 0 && precision = some 0 then [] else integerDigits conversion n
  let ds := List.replicate (min (precision.getD 0 - ds.length) maxPadding) '0' ++ ds
  let isMarked := flags.contains '#'
  let ds :=
    if isMarked && conversion = 'o' && ds.head? ≠ some '0' then '0' :: ds
    else if isMarked && (conversion = 'x' || conversion = 'X') && n ≠ 0 then '0' :: conversion :: ds
    else ds
  (if signedConversions.contains conversion then signOf flags negative else []) ++ ds

/-- The bytes of an integer under a directive; with a precision it is not filled up with zeros. -/
def integerBytes (flags : List Char) (width : Nat) (precision : Option Nat) (conversion : Char)
    (negative : Bool) (n : Nat) : List UInt8 :=
  let text := integerText flags precision conversion negative n
  padded flags width (text.map byteOf) (flags.contains '0' && precision.isNone)

/-! ### Numbers with a point -/

/-- The greatest number of places that a number of a binary format needs. -/
def maxPlaces (f : BinaryFormat) : Nat := (-f.minExponent).toNat

/-- The text of a finite number without its sign; behind the places that it needs stand zeros. -/
def finiteText (f : BinaryFormat) (flags : List Char) (precision : Option Nat) (conversion : Char)
    (m : Nat) (e : Int) : List Char :=
  let keeps := flags.contains '#'
  let wanted := min (precision.getD 6) maxPadding
  let places := min wanted (maxPlaces f)
  let zeros := List.replicate (wanted - places) '0'
  let (num, den) := if 0 ≤ e then (m * twoPow e.toNat, 1) else (m, twoPow (-e).toNat)
  match conversion.toLower with
  | 'a' => Hexadecimal.text f (precision.map (min maxPadding)) keeps m e
  | 'f' => Places.positional places keeps num den ++ zeros
  | 'e' =>
    let (n, power) := Places.scientificDigits places num den
    Places.withPoint places keeps (Places.digits (places + 1) n) ++ zeros ++ Places.powerText power
  | _ => Places.shorter places keeps num den

/-- The text of a number with a point under a directive, and whether it is finite. -/
def pointText (f : BinaryFormat) (flags : List Char) (precision : Option Nat) (conversion : Char)
    (negative : Bool) (q : Quantity) : List Char × Bool :=
  let cased (cs : List Char) : List Char :=
    if conversion.isUpper then cs.map Char.toUpper else cs
  match (q.rounded? f).map Rounded.size with
  | none => (signOf flags negative ++ cased "nan".toList, false)
  | some .infinite => (signOf flags negative ++ cased "inf".toList, false)
  | some (.finite m e) =>
    (signOf flags negative ++ cased (finiteText f flags precision conversion m e), true)

/-- The bytes of a number with a point under a directive; only a finite one is filled up with
zeros. -/
def pointBytes (f : BinaryFormat) (flags : List Char) (width : Nat) (precision : Option Nat)
    (conversion : Char) (negative : Bool) (q : Quantity) : List UInt8 :=
  let (text, isFinite) := pointText f flags precision conversion negative q
  padded flags width (text.map byteOf) (flags.contains '0' && isFinite)

end UnusedDeps.Shell
