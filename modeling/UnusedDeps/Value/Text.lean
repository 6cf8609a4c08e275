import UnusedDeps.Value.Basic
import UnusedDeps.Number.IntegerText
import UnusedDeps.Number.Shortest
import UnusedDeps.Text.Quoted

/-!
# Values inside messages

A message shows a text as it is at the top and in quotes inside lists and
tables; the other values look the same in both places. Not every value can be
shown: an integer may have too many digits, and a process has room for so many
levels of lists and tables only.
-/

namespace UnusedDeps.Value

mutual

/-- A value as it stands inside a list, a table or a message that quotes its texts. -/
def quotedText : Value → String
  | .null => "None"
  | .bool b => if b then "True" else "False"
  | .int n => toString n
  | .float x => x.text
  | .text s => Text.quoted s
  | .moment _ written => written
  | .list items => "[" ++ quotedItems items ++ "]"
  | .table fields => "\x7b" ++ quotedFields fields ++ "\x7d"

/-- The items of a list, separated by commas. -/
def quotedItems : List Value → String
  | [] => ""
  | [v] => quotedText v
  | v :: rest => quotedText v ++ ", " ++ quotedItems rest

/-- The fields of a table, separated by commas. -/
def quotedFields : List (String × Value) → String
  | [] => ""
  | [(k, v)] => Text.quoted k ++ ": " ++ quotedText v
  | (k, v) :: rest => Text.quoted k ++ ": " ++ quotedText v ++ ", " ++ quotedFields rest

end

/-- A value as text: a text is itself. -/
def plainText : Value → String
  | .text s => s
  | v => v.quotedText

/-- A value as the name of a field: a text is itself, and the other values look as they do in a
document. -/
def fieldName : Value → String
  | .null => "null"
  | .bool b => if b then "true" else "false"
  | .float .nan => "NaN"
  | .float (.infinite negative) => if negative then "-Infinity" else "Infinity"
  | v => v.plainText

/-! ### What can be shown -/

/-- Why a value cannot be shown. -/
inductive ShowFault where
  /-- An integer has more digits than a written integer may have. -/
  | hugeInteger
  /-- Items and fields are nested too deeply. -/
  | tooDeep
  deriving DecidableEq, Repr

mutual

/-- The first thing that keeps a value from being shown by a process that has room for so many levels
of items and fields below it. -/
def showFault? : Nat → Value → Option ShowFault
  | _, .int n => if maxDigits < (Nat.toDigits 10 n.natAbs).length then some .hugeInteger else none
  | room, .list items => showFaultItems? room items
  | room, .table fields => showFaultFields? room fields
  | _, _ => none

def showFaultItems? : Nat → List Value → Option ShowFault
  | _, [] => none
  | 0, _ :: _ => some .tooDeep
  | room + 1, v :: rest => (showFault? room v).orElse fun _ => showFaultItems? (room + 1) rest

def showFaultFields? : Nat → List (String × Value) → Option ShowFault
  | _, [] => none
  | 0, _ :: _ => some .tooDeep
  | room + 1, (_, v) :: rest =>
    (showFault? room v).orElse fun _ => showFaultFields? (room + 1) rest

end

mutual

/-- The number of levels of items and fields below a value. -/
def depth : Value → Nat
  | .list items => depthItems items
  | .table fields => depthFields fields
  | _ => 0

def depthItems : List Value → Nat
  | [] => 0
  | v :: rest => max (depth v + 1) (depthItems rest)

def depthFields : List (String × Value) → Nat
  | [] => 0
  | (_, v) :: rest => max (depth v + 1) (depthFields rest)

end

/-- A value as text, as a process shows it that has room for so many levels. -/
def shownWithin (room : Nat) (v : Value) : Except ShowFault String :=
  match v.showFault? room with
  | some f => .error f
  | none => .ok v.plainText

/-- A value as text, as it is shown where there is room for all of it. -/
def shown? (v : Value) : Option String := (v.shownWithin v.depth).toOption

end UnusedDeps.Value
