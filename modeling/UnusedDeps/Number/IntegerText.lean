import UnusedDeps.Text.Blank

/-!
# Integers written as text

An integer may stand between white space, carries at most one sign, and is
written with the decimal digits of any script; one `_` may separate two digits.
Of the ASCII characters only the space and the controls U+0009 to U+000D count
as the white space around it. More than 4300 digits are refused.
-/

namespace UnusedDeps

/-- The code points of the digits zero of Unicode 14; each is followed by the other nine digits. -/
def digitZeros : List Nat :=
  [0x30, 0x660, 0x6f0, 0x7c0, 0x966, 0x9e6, 0xa66, 0xae6, 0xb66, 0xbe6, 0xc66, 0xce6, 0xd66, 0xde6,
   0xe50, 0xed0, 0xf20, 0x1040, 0x1090, 0x17e0, 0x1810, 0x1946, 0x19d0, 0x1a80, 0x1a90, 0x1b50,
   0x1bb0, 0x1c40, 0x1c50, 0xa620, 0xa8d0, 0xa900, 0xa9d0, 0xa9f0, 0xaa50, 0xabf0, 0xff10, 0x104a0,
   0x10d30, 0x11066, 0x110f0, 0x11136, 0x111d0, 0x112f0, 0x11450, 0x114d0, 0x11650, 0x116c0,
   0x11730, 0x118e0, 0x11950, 0x11c50, 0x11d50, 0x11da0, 0x16a60, 0x16ac0, 0x16b50, 0x1d7ce,
   0x1d7d8, 0x1d7e2, 0x1d7ec, 0x1d7f6, 0x1e140, 0x1e2f0, 0x1e950, 0x1fbf0]

/-- The value of a decimal digit of any script. -/
def digitValue? (c : Char) : Option Nat :=
  (digitZeros.find? fun z => z ≤ c.toNat && c.toNat ≤ z + 9).map (c.toNat - ·)

/-- The largest number of digits that a written integer may have. -/
def maxDigits : Nat := 4300

/-- The white space that may stand around an integer. -/
def isMargin (c : Char) : Bool :=
  if c.toNat < 0x80 then c = ' ' || (0x09 ≤ c.toNat && c.toNat ≤ 0x0d) else Text.isBlank c

/-- The values of digits that may be separated by single `_`. -/
def separatedDigits? : List Char → Option (List Nat)
  | [] => none
  | [c] => (digitValue? c).map ([·])
  | c :: '_' :: r => do return (← digitValue? c) :: (← separatedDigits? r)
  | c :: d :: r => do return (← digitValue? c) :: (← separatedDigits? (d :: r))

/-- The number that a list of decimal digits denotes. -/
def ofDigits (ds : List Nat) : Nat := ds.foldl (fun n d => 10 * n + d) 0

/-- A natural number in separated digits, none of them more than `maxDigits`. -/
def separatedNat? (cs : List Char) : Option Nat := do
  let ds ← separatedDigits? cs
  if ds.length ≤ maxDigits then some (ofDigits ds) else none

/-- A number with at most one sign before its digits. -/
def signedInt? : List Char → Option Int
  | '-' :: r => (separatedNat? r).map fun n => -(n : Int)
  | '+' :: r => (separatedNat? r).map fun n => (n : Int)
  | r => (separatedNat? r).map fun n => (n : Int)

def integer? (s : String) : Option Int := signedInt? (Text.trimBoth isMargin s.toList)

end UnusedDeps
