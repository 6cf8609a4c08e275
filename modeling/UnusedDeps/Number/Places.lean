import UnusedDeps.Number.Rounding

/-!
# Decimals of a given precision

The value of a binary number is written with a given number of places behind the
point, in positional or in scientific notation. It is rounded to the nearest
decimal, a half to the even one; the value is exact, so nothing is rounded twice.
-/

namespace UnusedDeps.Places

/-- Digits with zeros in front up to a width. -/
def digits (width n : Nat) : List Char :=
  let ds := Nat.toDigits 10 n
  List.replicate (width - ds.length) '0' ++ ds

/-- Digits with a point in front of the last ones; with no places there is no point unless it is
kept. -/
def withPoint (places : Nat) (keepsPoint : Bool) (ds : List Char) : List Char :=
  let whole := ds.length - places
  ds.take whole ++ (if places = 0 && !keepsPoint then [] else ['.']) ++ ds.drop whole

/-- The positional notation of the fraction `num / den`. -/
def positional (places : Nat) (keepsPoint : Bool) (num den : Nat) : List Char :=
  withPoint places keepsPoint
    (digits (places + 1) (roundQuotient (num * tenPow places) den))

/-- The digits of the fraction `num / den` with one in front of the point, for a power of ten. -/
def scaledDigits (places : Nat) (num den : Nat) (power : Int) : Nat :=
  let shift : Int := places - power
  if 0 ≤ shift then roundQuotient (num * tenPow shift.toNat) den
  else roundQuotient num (den * tenPow (-shift).toNat)

/-- The power of ten of the first digit of a positive fraction. -/
def leadingPower (num den : Nat) : Int :=
  let guess : Int := (Nat.toDigits 10 num).length - (Nat.toDigits 10 den).length
  let isBelow : Bool :=
    if 0 ≤ guess then num < den * tenPow guess.toNat else num * tenPow (-guess).toNat < den
  if isBelow then guess - 1 else guess

/-- The digits with one in front of the point, and the power of ten, of the rounded fraction. -/
def scientificDigits (places : Nat) (num den : Nat) : Nat × Int :=
  if num = 0 then (0, 0)
  else
    let power := leadingPower num den
    let n := scaledDigits places num den power
    if n = tenPow (places + 1) then (tenPow places, power + 1) else (n, power)

/-- A power of ten behind its mark, with a sign and at least two digits. -/
def powerText (power : Int) : List Char :=
  'e' :: (if power < 0 then '-' else '+') :: digits 2 power.natAbs

/-- The scientific notation of a fraction. -/
def scientific (places : Nat) (keepsPoint : Bool) (num den : Nat) : List Char :=
  let (n, power) := scientificDigits places num den
  withPoint places keepsPoint (digits (places + 1) n) ++ powerText power

/-- A text without the zeros at the end of its decimals. -/
def withoutZeros (cs : List Char) : List Char :=
  if cs.contains '.' then
    let kept := (cs.reverse.dropWhile (· = '0')).reverse
    if kept.getLast? = some '.' then kept.dropLast else kept
  else cs

/-- The shorter notation of a fraction: a positional one unless the power of ten is below -4 or not
below the precision. -/
def shorter (precision : Nat) (keepsZeros : Bool) (num den : Nat) : List Char :=
  let precision := max 1 precision
  let (n, power) := scientificDigits (precision - 1) num den
  let trim (cs : List Char) : List Char := if keepsZeros then cs else withoutZeros cs
  if -4 ≤ power && power < precision then
    trim (positional (precision - 1 - power).toNat keepsZeros num den)
  else trim (withPoint (precision - 1) keepsZeros (digits precision n)) ++ powerText power

end UnusedDeps.Places
