import UnusedDeps.Number.Binary64
import UnusedDeps.Text.Blank

/-!
# Numbers and truth values written as text in documents

A document may give a number or a truth value as a text. Around an integer stand
a sign, white space, leading zeros and a fraction of zeros; one `_` may separate
two digits. A floating-point number is a decimal or the name of an
infinity or of not-a-number. A truth value is one of six pairs of words.
-/

namespace UnusedDeps

/-- Unicode white space, without the separator controls. -/
def isDocumentBlank (c : Char) : Bool := Text.isBlank c && !(0x1c ≤ c.toNat && c.toNat ≤ 0x1f)

/-- An ASCII letter in lower case, any other character as it is. -/
def asciiLower (c : Char) : Char := if 'A' ≤ c && c ≤ 'Z' then Char.ofNat (c.toNat + 32) else c

def isAsciiDigit (c : Char) : Bool := '0' ≤ c && c ≤ '9'

/-- The number that ASCII digits denote. -/
def asciiNat (ds : List Char) : Nat := ds.foldl (fun n c => 10 * n + (c.toNat - '0'.toNat)) 0

/-! ### Separators -/

/-- The characters without `_`, when each one stands alone between two others. -/
def joinedGroups? (cs : List Char) : Option (List Char) :=
  let groups := Text.pieces (· = '_') cs
  if groups.any List.isEmpty then none else some groups.flatten

/-! ### Integers -/

/-- An integer that a text in a document shows. -/
inductive ShownInteger where
  | none
  /-- An integer of more digits than one may have. -/
  | tooLarge
  | value (n : Int)
  deriving DecidableEq, Repr

/-- How many digits an integer may have. -/
def maxShownDigits : Nat := 4300

/-- The integer that ASCII characters denote: a minus sign that may be left out and digits, of which
the first is zero only when it stands alone. Too many digits are found before anything behind
them. -/
def plainInteger (cs : List Char) : ShownInteger :=
  let (negative, cs) := match cs with
    | '-' :: r => (true, r)
    | r => (false, r)
  let ds := if cs.head? = some '0' then ['0'] else cs.takeWhile isAsciiDigit
  if maxShownDigits < ds.length then .tooLarge
  else if ds.isEmpty || ds.length < cs.length then .none
  else .value (if negative then -(asciiNat ds : Int) else asciiNat ds)

/-- What stands behind leading zeros, among which `_` may stand: from the first other digit or minus
sign on. Where only a point or nothing follows, the last of the characters skipped stays. -/
def withoutLeadingZeros? : List Char → Option (List Char)
  | '0' :: rest =>
    let isFiller (c : Char) := c = '0' || c = '_'
    let last := (rest.takeWhile isFiller).getLastD '0'
    match rest.dropWhile isFiller with
    | [] => some [last]
    | '.' :: r => some (last :: '.' :: r)
    | c :: r => if isAsciiDigit c || c = '-' then some (c :: r) else .none
  | c :: rest => if isAsciiDigit c then some (c :: rest) else .none
  | [] => .none

/-- The characters before a point that only zeros follow, at least one; all of them when there is no
such point. -/
def wholePart (cs : List Char) : List Char :=
  match Text.cut '.' cs with
  | (whole, none) => whole
  | (whole, some places) => if !places.isEmpty && places.all (· = '0') then whole else cs

/-- The characters of an integer without the white space, the plus sign, the leading zeros, the
fraction of zeros and the single `_` that a document may give it. -/
def cleanedInteger? (cs : List Char) : Option (List Char) := do
  let cs ← match Text.trimBoth isDocumentBlank cs with
    | '+' :: '-' :: _ => .none
    | '+' :: r => some r
    | r => some r
  let (sign, cs) := match cs with
    | '-' :: r => (['-'], r)
    | r => ([], r)
  let whole := wholePart (← withoutLeadingZeros? cs)
  return sign ++ (joinedGroups? whole).getD whole

/-- The integer that a text in a document shows. One that has to be cleaned first and is too large
then is none at all. -/
def shownInteger (s : String) : ShownInteger :=
  match plainInteger s.toList with
  | .none =>
    match (cleanedInteger? s.toList).map plainInteger with
    | some (.value n) => .value n
    | _ => .none
  | shown => shown

/-! ### Floating-point numbers -/

/-- The exponent of ten written after its mark. -/
def exponentOf? (cs : List Char) : Option Int :=
  let (negative, ds) := match cs with
    | '-' :: r => (true, r)
    | '+' :: r => (false, r)
    | r => (false, r)
  if ds.isEmpty || !ds.all isAsciiDigit then none
  else
    let n : Int := asciiNat ds
    some (if negative then -n else n)

/-- A decimal without sign. -/
def decimal? (negative : Bool) (cs : List Char) : Option Binary64 := do
  let (mantissa, exponent) := match Text.cut 'e' (cs.map asciiLower) with
    | (m, some e) => (m, exponentOf? e)
    | (m, none) => (m, some 0)
  let e ← exponent
  let (whole, places) := match Text.cut '.' mantissa with
    | (w, some p) => (w, p)
    | (w, none) => (w, [])
  if (whole.isEmpty && places.isEmpty) || !(whole ++ places).all isAsciiDigit then none
  else return .ofDecimal negative (asciiNat (whole ++ places)) (e - places.length)

/-- The floating-point number that characters spell, with at most one sign. -/
def spelledFloat? (cs : List Char) : Option Binary64 :=
  let (negative, body) := match cs with
    | '-' :: r => (true, r)
    | '+' :: r => (false, r)
    | r => (false, r)
  let word := String.ofList (body.map asciiLower)
  if word = "inf" || word = "infinity" then some (.infinite negative)
  else if word = "nan" then some .nan
  else decimal? negative body

/-- The floating-point number that a text in a document gives. White space may stand around it, or
single `_` inside it, but not both. -/
def relaxedFloat? (s : String) : Option Binary64 :=
  match spelledFloat? (Text.trimBoth isDocumentBlank s.toList) with
  | some x => some x
  | none => (joinedGroups? s.toList).bind spelledFloat?

/-! ### Truth values -/

def trueWords : List String := ["1", "on", "t", "true", "y", "yes"]

def falseWords : List String := ["0", "off", "f", "false", "n", "no"]

/-- The truth value that a text in a document gives. -/
def relaxedBool? (s : String) : Option Bool :=
  let word := String.ofList (s.toList.map asciiLower)
  if trueWords.contains word then some true
  else if falseWords.contains word then some false
  else none

end UnusedDeps
