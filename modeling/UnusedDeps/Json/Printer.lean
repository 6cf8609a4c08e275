import UnusedDeps.Value.Basic
import UnusedDeps.Number.Shortest
import UnusedDeps.Text.Quoted

/-!
# Writing JSON

Values are written on one line with `, ` and `: ` as separators. A writer either
escapes everything outside printable ASCII, with surrogate pairs beyond the basic
plane, or leaves all but the quote, the backslash and the controls as they are.
-/

namespace UnusedDeps.Json

/-- Which characters a writer escapes. -/
inductive Charset where
  | ascii
  | unicode
  deriving DecidableEq, Repr

/-- The escape `\uXXXX` of a 16-bit unit. -/
def unitEscape (n : Nat) : List Char := '\\' :: 'u' :: Text.hex 4 n

/-- The escape of a code point, in two units beyond the basic plane. -/
def codeEscape (n : Nat) : List Char :=
  if n < 0x10000 then unitEscape n
  else
    let n := n - 0x10000
    unitEscape (0xd800 + n / 0x400) ++ unitEscape (0xdc00 + n % 0x400)

/-- How a code point is written inside a text. -/
def writtenCode (charset : Charset) (n : Nat) : List Char :=
  if n = 0x22 then ['\\', '"']
  else if n = 0x5c then ['\\', '\\']
  else if n = 0x0a then ['\\', 'n']
  else if n = 0x0d then ['\\', 'r']
  else if n = 0x09 then ['\\', 't']
  else if n = 0x08 then ['\\', 'b']
  else if n = 0x0c then ['\\', 'f']
  else if 0x20 ≤ n && (charset == .unicode || n < 0x7f) then Text.charsOf n
  else codeEscape n

def writtenText (charset : Charset) (s : String) : List Char :=
  '"' :: (Text.codes s).flatMap (writtenCode charset) ++ ['"']

/-- A written floating-point number. -/
def writtenFloat : Binary64 → List Char
  | .nan => "NaN".toList
  | .infinite negative => (if negative then "-Infinity" else "Infinity").toList
  | x => x.text.toList

mutual

def written (charset : Charset) : Value → List Char
  | .null => "null".toList
  | .bool b => (if b then "true" else "false").toList
  | .int n => (toString n).toList
  | .float x => writtenFloat x
  | .text s => writtenText charset s
  | .moment _ moment => writtenText charset moment
  | .list items => '[' :: writtenItems charset items ++ [']']
  | .table fields => '{' :: writtenFields charset fields ++ ['}']

/-- The items of a list, separated by `, `. -/
def writtenItems (charset : Charset) : List Value → List Char
  | [] => []
  | [v] => written charset v
  | v :: rest => written charset v ++ ',' :: ' ' :: writtenItems charset rest

/-- The fields of a table, separated by `, `. -/
def writtenFields (charset : Charset) : List (String × Value) → List Char
  | [] => []
  | [(k, v)] => writtenText charset k ++ ':' :: ' ' :: written charset v
  | (k, v) :: rest =>
    writtenText charset k ++ ':' :: ' ' :: written charset v ++ ',' :: ' ' ::
      writtenFields charset rest

end

def print (charset : Charset) (v : Value) : String := String.ofList (written charset v)

end UnusedDeps.Json
