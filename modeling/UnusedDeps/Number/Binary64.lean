import UnusedDeps.Number.Rounding

/-!
# Binary floating-point numbers

A number of the 64-bit binary format is kept as its sign, a mantissa below
`2 ^ 53` and an exponent of two, so that reading a decimal and every question
about the number are exact arithmetic on integers. Not-a-number carries no
payload.
-/

namespace UnusedDeps

/-- A 64-bit binary number; a finite one is `mantissa * 2 ^ exponent` with its sign. -/
inductive Binary64 where
  | nan
  | infinite (negative : Bool)
  | finite (negative : Bool) (mantissa : Nat) (exponent : Int)
  deriving DecidableEq, Repr

namespace Binary64

/-- The nearest number to `digits * 10 ^ exponent`. -/
def ofDecimal (negative : Bool) (digits : Nat) (exponent : Int) : Binary64 :=
  match (BinaryFormat.double.ofDecimal digits exponent).size with
  | .infinite => .infinite negative
  | .finite m e => .finite negative m e

/-- Whether the number is a zero of either sign. -/
def isZero : Binary64 → Bool
  | .finite _ m _ => m = 0
  | _ => false

/-- Whether the number is greater than the fraction `num / den`; not-a-number is not. -/
def isAbove (num den : Nat) : Binary64 → Bool
  | .nan => false
  | .infinite negative => !negative
  | .finite negative m e =>
    !negative &&
      (if 0 ≤ e then num < m * twoPow e.toNat * den else num * twoPow (-e).toNat < m * den)

/-- The integer that a number without fraction is equal to. -/
def integer? : Binary64 → Option Int
  | .finite negative m e =>
    let magnitude? : Option Nat :=
      if 0 ≤ e then some (m * twoPow e.toNat)
      else if m % twoPow (-e).toNat = 0 then some (m / twoPow (-e).toNat) else none
    magnitude?.map fun n => if negative then -(n : Int) else n
  | _ => none

/-- A finite number as a fraction. -/
def asFraction (negative : Bool) (m : Nat) (e : Int) : Int × Nat :=
  let n : Int := if 0 ≤ e then m * twoPow e.toNat else m
  (if negative then -n else n, if 0 ≤ e then 1 else twoPow (-e).toNat)

/-- The order of two numbers; not-a-number is beside every number. -/
def order : Binary64 → Binary64 → Ordering
  | .nan, _ => .eq
  | _, .nan => .eq
  | .infinite n, .infinite m => if n = m then .eq else if n then .lt else .gt
  | .infinite n, _ => if n then .lt else .gt
  | _, .infinite n => if n then .gt else .lt
  | .finite n m e, .finite n' m' e' =>
    let (a, b) := asFraction n m e
    let (c, d) := asFraction n' m' e'
    compare (a * d) (c * b)

end Binary64

end UnusedDeps
