import UnusedDeps.Mapping
import UnusedDeps.Number.Binary64
import UnusedDeps.Text.Codes

/-!
# Values of data documents

A `Value` is what a JSON or TOML document holds: the scalars, dates and times,
lists, and tables whose fields keep the order in which their names first came.
The module also says which values count as true, what the elements of a value
are, and when a sequence of pairs is a table.
-/

namespace UnusedDeps

/-- The three kinds of dates and times. -/
inductive MomentKind where
  | dateTime
  | date
  | time
  deriving DecidableEq, Repr

/-- A value of a data document. -/
inductive Value where
  | null
  | bool (b : Bool)
  | int (n : Int)
  | float (x : Binary64)
  | text (s : String)
  | moment (kind : MomentKind) (written : String)
  | list (items : List Value)
  | table (fields : List (String × Value))
  deriving Repr, Inhabited

instance : Coe String Value := ⟨.text⟩

/-- The fields of a table in order. -/
abbrev Fields := Mapping String Value

namespace Value

def field? (v : Value) (name : String) : Option Value :=
  match v with
  | .table fields => Mapping.get? fields name
  | _ => none

/-- Whether the value counts as true: it is not null, false, zero or empty. -/
def isTruthy : Value → Bool
  | .null => false
  | .bool b => b
  | .int n => n ≠ 0
  | .float x => !x.isZero
  | .text s => !s.isEmpty
  | .moment _ _ => true
  | .list items => !items.isEmpty
  | .table fields => !fields.isEmpty

/-- The elements of a value: the items of a list, the code points of a text, the names of a table;
other values have none. -/
def elements? : Value → Option (List Value)
  | .list items => some items
  | .text s => some ((Text.codes s).map fun n => .text (Text.ofCodes [n]))
  | .table fields => some (fields.map fun f => .text f.1)
  | _ => none

end Value

end UnusedDeps
