import UnusedDeps.Number.IntegerText
import UnusedDeps.Text.Codes
import UnusedDeps.Value.Basic

/-!
# Reading JSON

The reader takes the standard grammar and, beside it, the words `NaN`,
`Infinity` and `-Infinity`. Controls inside texts, a byte order mark, trailing
commas and comments are refused. Of fields with one name the last counts.

Every reading function takes the characters that are left and answers with a
value and what is left after it, or with the first fault it meets. A fuel
argument bounds the recursion; twice the number of characters and two more are always
enough, since of two calls in a row one consumes a character.
-/

namespace UnusedDeps.Json

/-- Why a text gave no value. -/
inductive ReadFault where
  | notJson
  /-- An integer has more digits than a written integer may have. -/
  | hugeInteger
  /-- Lists and tables are nested too deeply. -/
  | tooDeep
  deriving DecidableEq, Repr

/-- What to do with an escape that names one half of a surrogate pair. -/
inductive HalfPair where
  | refused
  | kept
  deriving DecidableEq, Repr

/-- The limits of a reader. -/
structure Rules where
  halfPairs : HalfPair
  /-- How many lists and tables may be nested. -/
  maxDepth : Nat
  /-- Whether a list or table without elements counts. -/
  countsEmpty : Bool
  /-- Whether the digits before a point are limited like those of an integer. -/
  limitsFractions : Bool
  deriving DecidableEq, Repr

/-- The value of an option, or the fault of a text that is no JSON. -/
def orRefuse {α : Type} : Option α → Except ReadFault α
  | some a => .ok a
  | none => .error .notJson

/-- Whether a character separates the parts of a document. -/
def isSpace (c : Char) : Bool := c = ' ' || c = '\t' || c = '\n' || c = '\r'

/-- The characters without the space at their front. -/
def skipSpace (cs : List Char) : List Char := cs.dropWhile isSpace

/-- What follows a word that must stand at the front. -/
def dropWord? : List Char → List Char → Option (List Char)
  | [], cs => some cs
  | _ :: _, [] => none
  | w :: ws, c :: cs => if w = c then dropWord? ws cs else none

/-! ### Texts -/

/-- The value of a hexadecimal digit. -/
def hexValue? (c : Char) : Option Nat :=
  if '0' ≤ c && c ≤ '9' then some (c.toNat - '0'.toNat)
  else if 'a' ≤ c && c ≤ 'f' then some (c.toNat - 'a'.toNat + 10)
  else if 'A' ≤ c && c ≤ 'F' then some (c.toNat - 'A'.toNat + 10)
  else none

/-- The 16-bit unit written with the four hexadecimal digits at the front. -/
def unit? : List Char → Option (Nat × List Char)
  | a :: b :: c :: d :: r => do
    let a ← hexValue? a
    let b ← hexValue? b
    let c ← hexValue? c
    let d ← hexValue? d
    return (((a * 16 + b) * 16 + c) * 16 + d, r)
  | _ => none

/-- The code point read for a unit that is one half of a surrogate pair. -/
def halfPair? (policy : HalfPair) (unit : Nat) : Option Nat :=
  match policy with
  | .refused => none
  | .kept => some unit

/-- The code point that a `\u` escape and, where needed, the escape after it name. -/
def codeEscape? (policy : HalfPair) (cs : List Char) : Option (Nat × List Char) := do
  let (n, r) ← unit? cs
  if n < 0xd800 || 0xe000 ≤ n then return (n, r)
  else if 0xdc00 ≤ n then return (← halfPair? policy n, r)
  else
    match (dropWord? ['\\', 'u'] r).bind unit? with
    | some (m, r') =>
      if 0xdc00 ≤ m && m < 0xe000 then
        return (0x10000 + (n - 0xd800) * 0x400 + (m - 0xdc00), r')
      else return (← halfPair? policy n, r)
    | none => return (← halfPair? policy n, r)

/-- The code point that an escape names, read after its backslash. -/
def escape? (policy : HalfPair) : List Char → Option (Nat × List Char)
  | '"' :: r => some (0x22, r)
  | '\\' :: r => some (0x5c, r)
  | '/' :: r => some (0x2f, r)
  | 'b' :: r => some (0x08, r)
  | 'f' :: r => some (0x0c, r)
  | 'n' :: r => some (0x0a, r)
  | 'r' :: r => some (0x0d, r)
  | 't' :: r => some (0x09, r)
  | 'u' :: r => codeEscape? policy r
  | _ => none

/-- A text read after its opening quote; `read` holds the characters so far, last first. -/
def textAfter? (policy : HalfPair) : Nat → List Char → List Char → Option (String × List Char)
  | 0, _, _ => none
  | _ + 1, _, [] => none
  | fuel + 1, read, c :: r =>
    if c = '"' then some (String.ofList read.reverse, r)
    else if c = '\\' then
      match escape? policy r with
      | some (n, r') => textAfter? policy fuel ((Text.charsOf n).reverse ++ read) r'
      | none => none
    else if c.toNat < 0x20 then none
    else textAfter? policy fuel (c :: read) r

/-! ### Numbers -/

def isDigit (c : Char) : Bool := '0' ≤ c && c ≤ '9'

/-- The number that ASCII digits denote. -/
def digitsValue (ds : List Char) : Nat := ds.foldl (fun n c => 10 * n + (c.toNat - '0'.toNat)) 0

/-- The digits before the point: a zero alone, or digits that start with another one. -/
def whole? : List Char → Option (List Char × List Char)
  | '0' :: r => some (['0'], r)
  | cs =>
    match cs.takeWhile isDigit with
    | [] => none
    | ds => some (ds, cs.dropWhile isDigit)

/-- The digits after a point, when the point is followed by any. -/
def fraction? : List Char → Option (List Char × List Char)
  | '.' :: r =>
    match r.takeWhile isDigit with
    | [] => none
    | ds => some (ds, r.dropWhile isDigit)
  | _ => none

/-- The sign at the front, which may be left out. -/
def sign : List Char → Bool × List Char
  | '-' :: r => (true, r)
  | '+' :: r => (false, r)
  | r => (false, r)

/-- The exponent of ten, when the mark is followed by digits. -/
def exponent? : List Char → Option (Int × List Char)
  | c :: r =>
    if c = 'e' || c = 'E' then
      let (negative, r) := sign r
      match r.takeWhile isDigit with
      | [] => none
      | ds =>
        let n : Int := digitsValue ds
        some (if negative then -n else n, r.dropWhile isDigit)
    else none
  | [] => none

/-- A number: an integer, or a floating-point number when it has a fraction or an exponent. -/
def number (rules : Rules) (cs : List Char) : Except ReadFault (Value × List Char) := do
  let (negative, cs) := match cs with
    | '-' :: r => (true, r)
    | r => (false, r)
  let (ds, rest) ← orRefuse (whole? cs)
  if rules.limitsFractions && maxDigits < ds.length then throw .hugeInteger
  let (places, rest', hasFraction) := match fraction? rest with
    | some (fs, r) => (fs, r, true)
    | none => ([], rest, false)
  match exponent? rest' with
  | some (e, r) =>
    return (.float (.ofDecimal negative (digitsValue (ds ++ places)) (e - places.length)), r)
  | none =>
    if hasFraction then
      return (.float (.ofDecimal negative (digitsValue (ds ++ places)) (-places.length)), rest')
    else if maxDigits < ds.length then throw .hugeInteger
    else
      let n : Int := digitsValue ds
      return (.int (if negative then -n else n), rest')

/-! ### Values -/

def words : List (String × Value) :=
  [("null", .null), ("true", .bool true), ("false", .bool false), ("NaN", .float .nan),
   ("Infinity", .float (.infinite false)), ("-Infinity", .float (.infinite true))]

/-- A word or a number. -/
def scalar (rules : Rules) (cs : List Char) : Except ReadFault (Value × List Char) :=
  match words.findSome? fun (w, v) => (dropWord? w.toList cs).map fun r => (v, r) with
  | some answer => .ok answer
  | none => number rules cs

/-- What follows the end of a list or table that has no element, read after its opening mark;
`depth` is how many more may be opened. -/
def emptyEnd? (rules : Rules) (close : Char) (depth : Nat) (r : List Char) :
    Except ReadFault (Option (List Char)) :=
  let rest? := match skipSpace r with
    | c :: r' => if c = close then some r' else none
    | [] => none
  if depth = 0 && (rest?.isNone || rules.countsEmpty) then .error .tooDeep else .ok rest?

mutual

/-- The value at the front; `depth` is how many lists and tables may be opened. -/
def value (rules : Rules) : Nat → Nat → List Char → Except ReadFault (Value × List Char)
  | 0, _, _ => .error .notJson
  | fuel + 1, depth, cs =>
    match cs with
    | '"' :: r => orRefuse ((textAfter? rules.halfPairs fuel [] r).map fun (s, r') => (.text s, r'))
    | '[' :: r =>
      match emptyEnd? rules ']' depth r with
      | .error e => .error e
      | .ok (some r') => .ok (.list [], r')
      | .ok none => items rules fuel (depth - 1) [] (skipSpace r)
    | '{' :: r =>
      match emptyEnd? rules '}' depth r with
      | .error e => .error e
      | .ok (some r') => .ok (.table [], r')
      | .ok none => fields rules fuel (depth - 1) [] (skipSpace r)
    | _ => scalar rules cs

/-- The items of a list up to its end; `read` holds those so far, last first. -/
def items (rules : Rules) :
    Nat → Nat → List Value → List Char → Except ReadFault (Value × List Char)
  | 0, _, _, _ => .error .notJson
  | fuel + 1, depth, read, cs =>
    match value rules fuel depth cs with
    | .error e => .error e
    | .ok (v, r) =>
      match skipSpace r with
      | ']' :: r' => .ok (.list (v :: read).reverse, r')
      | ',' :: r' => items rules fuel depth (v :: read) (skipSpace r')
      | _ => .error .notJson

/-- The fields of a table up to its end; `read` holds those so far, last first. -/
def fields (rules : Rules) :
    Nat → Nat → List (String × Value) → List Char → Except ReadFault (Value × List Char)
  | 0, _, _, _ => .error .notJson
  | fuel + 1, depth, read, cs =>
    match cs with
    | '"' :: r =>
      match textAfter? rules.halfPairs fuel [] r with
      | none => .error .notJson
      | some (k, r) =>
        match skipSpace r with
        | ':' :: r =>
          match value rules fuel depth (skipSpace r) with
          | .error e => .error e
          | .ok (v, r) =>
            match skipSpace r with
            | '}' :: r' => .ok (.table (Mapping.ofPairs ((k, v) :: read).reverse), r')
            | ',' :: r' => fields rules fuel depth ((k, v) :: read) (skipSpace r')
            | _ => .error .notJson
        | _ => .error .notJson
    | _ => .error .notJson

end

def wholeValue (rules : Rules) (cs : List Char) : Except ReadFault Value :=
  match value rules (2 * cs.length + 2) rules.maxDepth (skipSpace cs) with
  | .ok (v, r) => if (skipSpace r).isEmpty then .ok v else .error .notJson
  | .error e => .error e

def read (rules : Rules) (s : String) : Except ReadFault Value := wholeValue rules s.toList

end UnusedDeps.Json
