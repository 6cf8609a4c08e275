import UnusedDeps.Order

/-!
# Names in scripts

A name starts with a letter or an underscore and goes on with letters, digits and
underscores, all of ASCII. Digits denote decimal, octal and hexadecimal numbers.
Tables of names have an order of their own, in which nothing is lost.
-/

namespace UnusedDeps.Shell

def isDigit (c : Char) : Bool := '0' ≤ c && c ≤ '9'

def isOctal (c : Char) : Bool := '0' ≤ c && c ≤ '7'

/-- Whether a character may stand in front of a number. -/
def isMargin (c : Char) : Bool := c = ' ' || ('\t' ≤ c && c ≤ '\x0d')

def startsName (c : Char) : Bool := c.isAlpha || c = '_'

def inName (c : Char) : Bool := c.isAlphanum || c = '_'

def isName (s : String) : Bool := s.toList.head?.any startsName && s.toList.all inName

/-- The name that a text starts with, when an equals sign follows it, and the text behind that. -/
def assignment? (s : String) : Option (String × String) :=
  let name := s.toList.takeWhile inName
  match s.toList.drop name.length with
  | '=' :: value =>
    if name.head?.any startsName then some (String.ofList name, String.ofList value) else none
  | _ => none

/-- The value of a digit in a base up to sixteen. -/
def digit? (base : Nat) (c : Char) : Option Nat :=
  let value :=
    if isDigit c then some (c.toNat - '0'.toNat)
    else if 'a' ≤ c && c ≤ 'f' then some (c.toNat - 'a'.toNat + 10)
    else if 'A' ≤ c && c ≤ 'F' then some (c.toNat - 'A'.toNat + 10)
    else none
  value.filter (· < base)

/-- The number that the digits of a base denote. -/
def number (base : Nat) (ds : List Char) : Nat :=
  ds.foldl (fun n c => base * n + (digit? base c).getD 0) 0

/-- The number that decimal digits denote; `none` for other texts. -/
def decimal? (s : String) : Option Nat :=
  if !s.isEmpty && s.toList.all isDigit then some (number 10 s.toList) else none

/-- The number that stands for a name in a table. -/
def nameCode (s : String) : Nat :=
  16 * ((s.toList.head?).map Char.toNat).getD 0 + (s.toList.map Char.toNat).foldr (· + ·) 0

/-- The elements in the order of a table with places for names: by the place, which the code of the
name gives, and within a place in the order in which they came. -/
def inTable {α : Type} (places : Nat) (name : α → String) (xs : List α) : List α :=
  sortByKey (fun x => nameCode (name x) % places) xs

theorem mem_inTable {α : Type} (places : Nat) (name : α → String) (xs : List α) (a : α) :
    a ∈ inTable places name xs ↔ a ∈ xs :=
  mem_sortByKey _ xs a

end UnusedDeps.Shell
