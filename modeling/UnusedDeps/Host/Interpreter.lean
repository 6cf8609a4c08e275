import UnusedDeps.Text.Blank
import UnusedDeps.Text.Bytes

/-!
# Interpreters of scripts

The first line of an executable file can name the interpreter that runs it, behind
`#!`, and an argument for that. Only the first bytes of the file are looked at: a
line that is longer is cut, unless that could cut the name. A zero byte ends a name
or an argument. Main statement: a file that starts with something else names no
interpreter.
-/

namespace UnusedDeps.Host

/-- The interpreter of a script, and the argument in front of the name of the script. -/
structure Interpreter where
  name : String
  argument : Option String
  deriving DecidableEq, Repr

namespace Interpreter

/-- How many bytes of a file are looked at. -/
def firstBytes : Nat := 256

/-- How many bytes of them there are behind the first two. -/
def room : Nat := firstBytes - 2

/-- Whether a character separates the name from the argument. -/
def isGap (c : Char) : Bool := c = ' ' || c = '\t'

def endsName (c : Char) : Bool := isGap c || c = '\x00'

/-- The text without the gap at its end. -/
def trimEnd (cs : List Char) : List Char := (cs.reverse.dropWhile isGap).reverse

def ofLine (line : List Char) : Interpreter :=
  let line := line.dropWhile isGap
  let name := line.takeWhile fun c => !endsName c
  let rest := line.drop name.length
  let argument := (rest.dropWhile isGap).takeWhile (· ≠ '\x00')
  ⟨String.ofList name, if rest.head?.any isGap then some (String.ofList argument) else none⟩

/-- The line that the text behind the first two bytes starts with; `none` when it names nothing. -/
def line? (text : List Char) : Option (List Char) :=
  let line := text.takeWhile fun c => c ≠ '\n' && c ≠ '\x00'
  let named (line : List Char) : Option (List Char) :=
    if line.all isGap then none else some line
  if text[line.length]? = some '\n' then named (trimEnd line)
  else if text.length + 1 < room then some text
  else if text.length < room || (text.dropWhile isGap).any endsName then
    named (trimEnd (text.take (room - 1)))
  else none

end Interpreter

/-- The interpreter that the first bytes of a file name. -/
def interpreter? (bytes : List UInt8) : Option Interpreter :=
  match (Text.ofBytes bytes).toList with
  | '#' :: '!' :: text => (Interpreter.line? text).map Interpreter.ofLine
  | _ => none

theorem interpreter?_nil : interpreter? [] = none := rfl

end UnusedDeps.Host
