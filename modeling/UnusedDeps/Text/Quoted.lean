import UnusedDeps.Text.Codes
import UnusedDeps.Text.Printable

/-!
# Quoted texts

A quoted text stands between single quotes, or between double quotes when it
holds a single quote and no double one. Backslash, the quote itself and every
character that is not printable are written as escapes, with the shortest of
the two-, four- and eight-digit hexadecimal forms. Half a surrogate pair is
written as itself.
-/

namespace UnusedDeps.Text

/-- The hexadecimal digits of a number, lower case, at least `width` of them. -/
def hex (width n : Nat) : List Char :=
  let ds := Nat.toDigits 16 n
  List.replicate (width - ds.length) '0' ++ ds

/-- The escape of a code point that is not printable. -/
def escapeCode (n : Nat) : List Char :=
  if n = 0x0a then ['\\', 'n']
  else if n = 0x0d then ['\\', 'r']
  else if n = 0x09 then ['\\', 't']
  else if n ≤ 0xff then '\\' :: 'x' :: hex 2 n
  else if n ≤ 0xffff then '\\' :: 'u' :: hex 4 n
  else '\\' :: 'U' :: hex 8 n

/-- How a code point stands inside a text between quotes. -/
def quotedCode (quote : Char) (n : Nat) : List Char :=
  if isHalfPair n then escapeCode n
  else
    let c := Char.ofNat n
    if c = quote || c = '\\' then ['\\', c]
    else if isPrintable c then [c]
    else escapeCode n

/-- The quote that encloses a text: single, unless the text holds a single quote and no double
one. -/
def quoteFor (cs : List Char) : Char :=
  if cs.contains '\'' && !cs.contains '"' then '"' else '\''

/-- The text in quotes, with escapes. -/
def quoted (s : String) : String :=
  let quote := quoteFor s.toList
  String.ofList (quote :: (codes s).flatMap (quotedCode quote) ++ [quote])

end UnusedDeps.Text
