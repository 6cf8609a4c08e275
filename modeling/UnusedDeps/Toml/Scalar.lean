import UnusedDeps.Json.Reader
import UnusedDeps.Text.Blank
import UnusedDeps.Toml.Moment

/-!
# Scalars of configuration files

Texts are basic, with escapes, or literal; each kind has a form over several
lines. Integers are decimal, hexadecimal, octal or binary, and a `_` may stand
between two digits of any number. Only the decimal ones are limited in length.
Controls other than the tab are refused.
-/

namespace UnusedDeps.Toml

/-- Why a text gave no table. -/
inductive ReadFault where
  | notToml
  /-- A decimal integer has more digits than a written integer may have. -/
  | hugeInteger
  /-- Lists and inline tables are nested too deeply. -/
  | tooDeep
  deriving DecidableEq, Repr

/-- The value of an option, or the fault of a text that is no configuration. -/
def orRefuse {α : Type} : Option α → Except ReadFault α
  | some a => .ok a
  | none => .error .notToml

def isSpace (c : Char) : Bool := c = ' ' || c = '\t'

/-- Whether a character is a space, a tab or a line feed. -/
def isSpaceOrNewline (c : Char) : Bool := isSpace c || c = '\n'

/-- Whether a character is a control other than the tab. -/
def isForbidden (c : Char) : Bool := (c.toNat < 0x20 && c ≠ '\t') || c.toNat = 0x7f

/-! ### Texts -/

/-- The code point of a number of hexadecimal digits at the front. -/
def codePoint? (digits : Nat) (cs : List Char) : Option (Nat × List Char) := do
  let ds := cs.take digits
  if ds.length ≠ digits then none
  else
    let values ← ds.mapM Json.hexValue?
    let n := values.foldl (fun n d => 16 * n + d) 0
    if n < 0xd800 || (0xe000 ≤ n && n < 0x110000) then
      return (n, cs.drop digits)
    else none

/-- The code point that an escape names, read after its backslash. -/
def escape? : List Char → Option (Nat × List Char)
  | 'b' :: r => some (0x08, r)
  | 't' :: r => some (0x09, r)
  | 'n' :: r => some (0x0a, r)
  | 'f' :: r => some (0x0c, r)
  | 'r' :: r => some (0x0d, r)
  | '"' :: r => some (0x22, r)
  | '\\' :: r => some (0x5c, r)
  | 'u' :: r => codePoint? 4 r
  | 'U' :: r => codePoint? 8 r
  | _ => none

/-- What follows a line that ends with a backslash: the next character that is not white space. -/
def joinedLine? (cs : List Char) : Option (List Char) :=
  match cs.dropWhile isSpace with
  | '\n' :: r => some (r.dropWhile isSpaceOrNewline)
  | [] => some []
  | _ => none

/-- The rest of a basic text on one line, after its opening quote; `read` holds the characters so
far, last first. -/
def basic? : Nat → List Char → List Char → Option (String × List Char)
  | 0, _, _ => none
  | _ + 1, _, [] => none
  | fuel + 1, read, c :: r =>
    if c = '"' then some (String.ofList read.reverse, r)
    else if c = '\\' then
      match escape? r with
      | some (n, r) => basic? fuel ((Text.charsOf n).reverse ++ read) r
      | none => none
    else if isForbidden c then none
    else basic? fuel (c :: read) r

/-- The at most two quotes that belong to a text although they follow its end. -/
def extraQuotes (quote : Char) : List Char → List Char × List Char
  | c :: d :: r =>
    if c = quote then if d = quote then ([c, d], r) else ([c], d :: r) else ([], c :: d :: r)
  | [c] => if c = quote then ([c], []) else ([], [c])
  | [] => ([], [])

/-- The rest of a basic text over several lines; `read` holds the characters so far, last first. -/
def basicLines? : Nat → List Char → List Char → Option (String × List Char)
  | 0, _, _ => none
  | _ + 1, _, [] => none
  | fuel + 1, read, c :: r =>
    match c, r with
    | '"', '"' :: '"' :: r =>
      let (extra, r) := extraQuotes '"' r
      some (String.ofList (read.reverse ++ extra), r)
    | '\\', d :: r =>
      if isSpaceOrNewline d then
        match joinedLine? (d :: r) with
        | some r => basicLines? fuel read r
        | none => none
      else
        match escape? (d :: r) with
        | some (n, r) => basicLines? fuel ((Text.charsOf n).reverse ++ read) r
        | none => none
    | '\\', [] => none
    | c, r => if isForbidden c && c ≠ '\n' then none else basicLines? fuel (c :: read) r

/-- The rest of a literal text on one line. -/
def literal? (cs : List Char) : Option (String × List Char) :=
  match Text.cut '\'' cs with
  | (body, some r) => if body.any isForbidden then none else some (String.ofList body, r)
  | (_, none) => none

/-- The rest of a literal text over several lines; `read` holds the characters so far, last
first. -/
def literalLines? (read : List Char) : List Char → Option (String × List Char)
  | '\'' :: '\'' :: '\'' :: r =>
    let (extra, r) := extraQuotes '\'' r
    some (String.ofList (read.reverse ++ extra), r)
  | c :: r => if isForbidden c && c ≠ '\n' then none else literalLines? (c :: read) r
  | [] => none

/-- The characters without a line feed at the front. -/
def dropNewline : List Char → List Char
  | '\n' :: r => r
  | r => r

/-- The text at the front, in any of the four forms. -/
def text? : List Char → Option (String × List Char)
  | '"' :: '"' :: '"' :: r => basicLines? (r.length + 1) [] (dropNewline r)
  | '"' :: r => basic? (r.length + 1) [] r
  | '\'' :: '\'' :: '\'' :: r => literalLines? [] (dropNewline r)
  | '\'' :: r => literal? r
  | _ => none

/-! ### Numbers -/

/-- The digits that follow a first digit, each of them perhaps after a `_`. -/
def moreDigits (p : Char → Bool) : List Char → List Char × List Char
  | '_' :: c :: r =>
    if p c then
      let (ds, r) := moreDigits p r
      (c :: ds, r)
    else ([], '_' :: c :: r)
  | c :: r =>
    if p c then
      let (ds, r) := moreDigits p r
      (c :: ds, r)
    else ([], c :: r)
  | [] => ([], [])

/-- The digits at the front, at least one. -/
def digits? (p : Char → Bool) : List Char → Option (List Char × List Char)
  | c :: r =>
    if p c then
      let (ds, r) := moreDigits p r
      some (c :: ds, r)
    else none
  | [] => none

/-- The number that digits of a base denote. -/
def inBase (base : Nat) (ds : List Char) : Nat :=
  ds.foldl (fun n c => base * n + (Json.hexValue? c).getD 0) 0

/-- The integer at the front that names its base. -/
def basedInt? : List Char → Option (Value × List Char)
  | '0' :: 'x' :: r => (digits? (fun c => (Json.hexValue? c).isSome) r).map fun (ds, r) =>
    (.int (inBase 16 ds), r)
  | '0' :: 'b' :: r => (digits? (fun c => c = '0' || c = '1') r).map fun (ds, r) =>
    (.int (inBase 2 ds), r)
  | '0' :: 'o' :: r => (digits? (fun c => '0' ≤ c && c ≤ '7') r).map fun (ds, r) =>
    (.int (inBase 8 ds), r)
  | _ => none

/-- The sign at the front, which may be left out. -/
def sign (cs : List Char) : Bool × List Char := Json.sign cs

/-- The digits before the point: a zero alone, or digits that start with another one. -/
def whole? : List Char → Option (List Char × List Char)
  | '0' :: r => some (['0'], r)
  | r => digits? Char.isDigit r

/-- The digits after a point, when the point is followed by any. -/
def places? : List Char → Option (List Char × List Char)
  | '.' :: r => digits? Char.isDigit r
  | _ => none

/-- The exponent of ten, when its mark is followed by digits. -/
def exponent? : List Char → Option (Int × List Char)
  | c :: r =>
    if c = 'e' || c = 'E' then do
      let (negative, r) := sign r
      let (ds, r) ← digits? Char.isDigit r
      let n : Int := inBase 10 ds
      return (if negative then -n else n, r)
    else none
  | [] => none

/-- The decimal number at the front. -/
def decimal? (cs : List Char) : Option (Value × List Char) := do
  let (negative, r) := sign cs
  let (ds, r) ← whole? r
  let (ps, r, hasPlaces) := match places? r with
    | some (ps, r) => (ps, r, true)
    | none => ([], r, false)
  let float (e : Int) : Value := .float (.ofDecimal negative (inBase 10 (ds ++ ps)) (e - ps.length))
  match exponent? r with
  | some (e, r) => return (float e, r)
  | none =>
    if hasPlaces then return (float 0, r)
    else
      let n : Int := inBase 10 ds
      return (.int (if negative then -n else n), r)

/-- The words for truth values, infinities and not-a-number. -/
def words : List (String × Value) :=
  [("true", .bool true), ("false", .bool false), ("inf", .float (.infinite false)),
   ("+inf", .float (.infinite false)), ("-inf", .float (.infinite true)), ("nan", .float .nan),
   ("+nan", .float .nan), ("-nan", .float .nan)]

def word? (cs : List Char) : Option (Value × List Char) :=
  words.findSome? fun (w, v) => (Json.dropWord? w.toList cs).map fun r => (v, r)

/-- The decimal number or the word at the front. -/
def decimalOrWord (cs : List Char) : Except ReadFault (Value × List Char) :=
  match decimal? cs with
  | some (.int n, r) =>
    if tenPow maxDigits ≤ n.natAbs then .error .hugeInteger else .ok (.int n, r)
  | some answer => .ok answer
  | none => orRefuse (word? cs)

/-- The date, time, number or word at the front. -/
def scalar (cs : List Char) : Except ReadFault (Value × List Char) :=
  if (dateParts? cs).isSome then orRefuse (moment? cs)
  else
    match (time? cs).map (fun (t, r) => (Value.moment .time t, r)) <|> basedInt? cs with
    | some answer => .ok answer
    | none => decimalOrWord cs

end UnusedDeps.Toml
