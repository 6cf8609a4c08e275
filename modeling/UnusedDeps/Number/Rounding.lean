import UnusedDeps.Number.Power

/-!
# Rounding to binary formats

A format of binary numbers bounds the bits of their mantissas and their exponents.
A fraction is rounded to the nearest number of a format, a half to the one with the
even mantissa, and it is told whether the number was outside of what the format
holds. A power may be as great as a text can write it, so a number that is far
outside is not computed.
-/

namespace UnusedDeps

/-- The quotient rounded to the nearest number; a half goes to the even neighbour. -/
def roundQuotient (num den : Nat) : Nat :=
  let q := num / den
  let r := num % den
  if 2 * r < den then q
  else if den < 2 * r then q + 1
  else if q % 2 = 0 then q else q + 1

/-- A format of binary numbers `mantissa * 2 ^ exponent`. -/
structure BinaryFormat where
  /-- The number of bits of a mantissa. -/
  bits : Nat
  /-- The exponent of a number that has no room for a smaller one. -/
  minExponent : Int
  /-- The largest exponent of a finite number. -/
  maxExponent : Int
  deriving DecidableEq, Repr

/-- The size of a number of a binary format. -/
inductive Magnitude where
  | infinite
  | finite (mantissa : Nat) (exponent : Int)
  deriving DecidableEq, Repr

/-- The nearest number of a format. -/
structure Rounded where
  size : Magnitude
  /-- Whether the number was too large, or too small to be held as it is. -/
  isOutside : Bool
  deriving DecidableEq, Repr

namespace BinaryFormat

/-- The format of 64 bits. -/
def double : BinaryFormat := ⟨53, -1074, 971⟩

/-- The format of 80 bits. -/
def extended : BinaryFormat := ⟨64, -16445, 16320⟩

def zero (f : BinaryFormat) : Magnitude := .finite 0 f.minExponent

/-- The fraction `num / den` times `2 ^ (-e)`, as numerator and denominator. -/
def scaleDown (num den : Nat) (e : Int) : Nat × Nat :=
  if 0 ≤ e then (num, den * twoPow e.toNat) else (num * twoPow (-e).toNat, den)

/-- The exponent with which a mantissa for a positive fraction has all the bits of the format. -/
def fullExponent (f : BinaryFormat) (num den : Nat) : Int :=
  let guess : Int := (num.log2 : Int) - den.log2 - (f.bits - 1 : Nat)
  let (n, d) := scaleDown num den guess
  if n < d * twoPow (f.bits - 1) then guess - 1 else guess

/-- The mantissa nearest to a positive fraction for an exponent, and its exponent. -/
def nearestAt (f : BinaryFormat) (num den : Nat) (e : Int) : Nat × Int :=
  let (n, d) := scaleDown num den e
  let m := roundQuotient n d
  if m = twoPow f.bits then (twoPow (f.bits - 1), e + 1) else (m, e)

/-- The nearest number to a positive fraction. A number counts as too small when, even with
smaller exponents than the format has, it would be below those with all bits, and is not held
exactly. -/
def ofFraction (f : BinaryFormat) (num den : Nat) : Rounded :=
  let full := f.fullExponent num den
  let (m, e) := f.nearestAt num den (max f.minExponent full)
  let (n, d) := scaleDown num den e
  let isTiny := (f.nearestAt num den full).2 < f.minExponent && n ≠ m * d
  if f.maxExponent < e then ⟨.infinite, true⟩ else ⟨.finite m e, isTiny⟩

/-- The nearest number to `digits * 10 ^ power`. -/
def ofDecimal (f : BinaryFormat) (digits : Nat) (power : Int) : Rounded :=
  let top : Int := digits.log2
  if digits = 0 then ⟨f.zero, false⟩
  else if top + 1 + max (3 * power) (4 * power) < f.minExponent then ⟨f.zero, true⟩
  else if f.maxExponent + f.bits < top + min (3 * power) (4 * power) then ⟨.infinite, true⟩
  else if 0 ≤ power then f.ofFraction (digits * tenPow power.toNat) 1
  else f.ofFraction digits (tenPow (-power).toNat)

/-- The nearest number to `digits * 2 ^ power`. -/
def ofBinary (f : BinaryFormat) (digits : Nat) (power : Int) : Rounded :=
  let top : Int := power + digits.log2
  if digits = 0 then ⟨f.zero, false⟩
  else if top < f.minExponent - 2 then ⟨f.zero, true⟩
  else if f.maxExponent + f.bits < top then ⟨.infinite, true⟩
  else if 0 ≤ power then f.ofFraction (digits * twoPow power.toNat) 1
  else f.ofFraction digits (twoPow (-power).toNat)

end BinaryFormat

end UnusedDeps
