import UnusedDeps.Number.Binary64

/-!
# The shortest decimal of a binary number

A positive binary number is written with the fewest decimal digits that read
back as the same number, and with the nearest of those; an exact tie goes to the
even digit. On the grid of `n`-digit decimals only the two neighbours of the
number can be the answer, so both are tested in exact arithmetic for
`n = 1, 2, …, 17`.
-/

namespace UnusedDeps

/-- A decimal number `digits * 10 ^ exponent`. -/
structure Decimal where
  digits : Nat
  exponent : Int
  deriving DecidableEq, Repr

namespace Binary64

/-- The numbers `a * 2 ^ q` and `b * 10 ^ k` on a common scale. -/
def commonScale (a : Nat) (q : Int) (b : Nat) (k : Int) : Nat × Nat :=
  let a := if 0 ≤ q then a * twoPow q.toNat else a
  let b := if 0 ≤ q then b else b * twoPow (-q).toNat
  if 0 ≤ k then (a, b * tenPow k.toNat) else (a * tenPow (-k).toNat, b)

/-- Whether `digits * 10 ^ k` reads back as the number with mantissa `m` and exponent `q`: it lies
between the midpoints to the two neighbours, the ends included when `m` is even. -/
def readsBack (m : Nat) (q : Int) (digits : Nat) (k : Int) : Bool :=
  let low := if m = twoPow 52 && BinaryFormat.double.minExponent < q then 4 * m - 1 else 4 * m - 2
  let (lo, x) := commonScale low (q - 2) digits k
  let (hi, y) := commonScale (4 * m + 2) (q - 2) digits k
  if m % 2 = 0 then lo ≤ x && y ≤ hi else lo < x && y < hi

/-- The largest multiple of `10 ^ k` that is not above `m * 2 ^ q`, counted in units of `10 ^ k`. -/
def gridFloor (m : Nat) (q k : Int) : Nat :=
  let (v, unit) := commonScale m q 1 k
  v / unit

/-- Whether `m * 2 ^ q` is nearer to `(d + 1) * 10 ^ k` than to `d * 10 ^ k`, a tie going to the
even one of the two. -/
def prefersUpper (m : Nat) (q : Int) (d : Nat) (k : Int) : Bool :=
  let (v, half) := commonScale (2 * m) q (2 * d + 1) k
  half < v || (half = v && d % 2 = 1)

/-- The decimal of the grid `10 ^ k` that reads back as the number, the nearer of two. -/
def onGrid? (m : Nat) (q k : Int) : Option Decimal :=
  let d := gridFloor m q k
  let lower := 0 < d && readsBack m q d k
  let upper := readsBack m q (d + 1) k
  match lower, upper with
  | false, false => none
  | true, false => some ⟨d, k⟩
  | false, true => some ⟨d + 1, k⟩
  | true, true => some (if prefersUpper m q d k then ⟨d + 1, k⟩ else ⟨d, k⟩)

/-- The decimal exponent `p` with `10 ^ p ≤ m * 2 ^ q < 10 ^ (p + 1)`, found from an estimate that
is at most two below it. -/
def decimalMagnitude (m : Nat) (q : Int) : Int :=
  let guess : Int := ((m.log2 : Int) + q) * 30103 / 100000 - 1
  let atLeast (p : Int) : Bool := 0 < gridFloor m q p
  if atLeast (guess + 2) then guess + 2
  else if atLeast (guess + 1) then guess + 1
  else guess

/-- The shortest decimal that reads back as the positive number `m * 2 ^ q`. -/
def shortestDecimal (m : Nat) (q : Int) : Decimal :=
  let p := decimalMagnitude m q
  let found := (List.range 17).findSome? fun (n : Nat) => onGrid? m q (p - n)
  found.getD ⟨gridFloor m q (p - 16), p - 16⟩

/-- The digits of a decimal without trailing zeros, and the place of the point: the value is
`0.d₁d₂… * 10 ^ point`. -/
def digitsAndPoint (d : Decimal) : List Char × Int :=
  let ds := Nat.toDigits 10 d.digits
  ((ds.reverse.dropWhile (· == '0')).reverse, d.exponent + ds.length)

/-- How the digits are laid out: positional when the point falls less than four places before the
first digit and at most sixteen places after it, and with a two-digit exponent of ten otherwise. A
positional number keeps at least one digit after its point. -/
def layOut (ds : List Char) (point : Int) : List Char :=
  if -4 < point && point ≤ 0 then
    '0' :: '.' :: List.replicate (-point).toNat '0' ++ ds
  else if 0 < point && point ≤ 16 then
    let places := point.toNat
    if ds.length ≤ places then ds ++ List.replicate (places - ds.length) '0' ++ ['.', '0']
    else ds.take places ++ '.' :: ds.drop places
  else
    let e := point - 1
    let tens := Nat.toDigits 10 e.natAbs
    let head := ds.take 1 ++ (if ds.length ≤ 1 then [] else '.' :: ds.drop 1)
    head ++ 'e' :: (if e < 0 then '-' else '+') :: List.replicate (2 - tens.length) '0' ++ tens

/-- The text of a number: its shortest decimal, or the name of what is not finite. -/
def text : Binary64 → String
  | .nan => "nan"
  | .infinite negative => if negative then "-inf" else "inf"
  | .finite negative m e =>
    let body :=
      if m = 0 then ['0', '.', '0']
      else
        let (ds, point) := digitsAndPoint (shortestDecimal m e)
        layOut ds point
    String.ofList (if negative then '-' :: body else body)

end Binary64

end UnusedDeps
