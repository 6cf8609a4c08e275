import UnusedDeps.Value.Key
import UnusedDeps.Value.Text

/-!
# Package metadata

The metadata of a package is a table. A document may also give it as a list of
pairs; then the first halves of the pairs are the keys, and those that are no
texts are kept apart, since no reader knows them.
-/

namespace UnusedDeps

/-- Why a value is no table. -/
inductive TableFault where
  | wrongType
  /-- An element is not a pair. -/
  | notPair
  deriving DecidableEq, Repr

/-- The metadata of a package. -/
structure Metadata where
  fields : Fields
  /-- The entries whose keys are no texts. -/
  strays : List (Value × Value)
  deriving Repr

namespace Metadata

def empty : Metadata := ⟨[], []⟩

def ofFields (fields : Fields) : Metadata := ⟨fields, []⟩

/-- Whether there is no entry. -/
def isEmpty (m : Metadata) : Bool := m.fields.isEmpty && m.strays.isEmpty

/-! ### Pairs -/

def pairOf (v : Value) : Except TableFault (Value × Value) :=
  match v.elements? with
  | none => .error .wrongType
  | some [a, b] => .ok (a, b)
  | some _ => .error .notPair

/-- The metadata with one more entry; lists and tables are no keys. -/
def set (m : Metadata) (k v : Value) : Except TableFault Metadata :=
  match k with
  | .text s => .ok { m with fields := Mapping.set s v m.fields }
  | .list _ => .error .wrongType
  | .table _ => .error .wrongType
  | k => .ok { m with strays := setByKey k v m.strays }

def addPairs (m : Metadata) : List Value → Except TableFault Metadata
  | [] => .ok m
  | item :: rest => do
    let (k, v) ← pairOf item
    (← m.set k v).addPairs rest

/-- The metadata that a value is: itself, or its pairs. -/
def ofValue (v : Value) : Except TableFault Metadata :=
  match v with
  | .table fields => .ok (ofFields fields)
  | v =>
    match v.elements? with
    | none => .error .wrongType
    | some items => empty.addPairs items

/-! ### Metadata as a table -/

def toValue (m : Metadata) : Value :=
  .table (m.fields ++ m.strays.map fun e => (e.1.fieldName, e.2))

end Metadata

end UnusedDeps
