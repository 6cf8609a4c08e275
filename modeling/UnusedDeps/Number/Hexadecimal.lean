import UnusedDeps.Number.Rounding

/-!
# Hexadecimal notation of binary numbers

A number of a binary format is written as a hexadecimal fraction times a power of
two. Every digit behind the point stands for four bits of the mantissa, and the digit
in front of it for those that are left; a rounded fraction that overflows the one digit
in front starts again with a one.
-/

namespace UnusedDeps.Hexadecimal

/-- How many digits behind the point hold all bits of a mantissa but those in front. -/
def allPlaces (f : BinaryFormat) : Nat := (f.bits - 1) / 4

/-- Hexadecimal digits with zeros in front up to a width. -/
def digits (width n : Nat) : List Char :=
  let ds := Nat.toDigits 16 n
  List.replicate (width - ds.length) '0' ++ ds

/-- The power of two behind its mark, with a sign. -/
def powerText (power : Int) : List Char :=
  'p' :: (if power < 0 then '-' else '+') :: Nat.toDigits 10 power.natAbs

/-- The notation of `m * 2 ^ e` with a number of places behind the point, or as many as are needed;
with no places there is no point unless it is kept. -/
def text (f : BinaryFormat) (places : Option Nat) (keepsPoint : Bool) (m : Nat) (e : Int) :
    List Char :=
  let full := allPlaces f
  let power : Int := if m = 0 then 0 else e + 4 * full
  let n := match places with
    | some p => if p < full then roundQuotient m (twoPow (4 * (full - p))) else m
    | none => m
  let kept := min full (places.getD full)
  let isOver := twoPow (4 * (kept + 1)) ≤ n
  let (n, power) := if isOver then (n / 16, power + 4) else (n, power)
  let ds := digits (kept + 1) n
  let behind := match places with
    | some p => ds.drop 1 ++ List.replicate (p - kept) '0'
    | none => ((ds.drop 1).reverse.dropWhile (· = '0')).reverse
  let point := if behind.isEmpty && !keepsPoint then [] else ['.']
  ['0', 'x'] ++ ds.take 1 ++ point ++ behind ++ powerText power

end UnusedDeps.Hexadecimal
