import UnusedDeps.Number.Relaxed
import UnusedDeps.Number.IntegerText
import UnusedDeps.Schema.Fault

/-!
# Reading typed documents

A reader checks a value against a type. All faults of a document are collected,
in the order of the declared fields and of the elements of a list; numbers and
truth values may also be given as texts, texts and lists only as themselves.
-/

namespace UnusedDeps

/-- The outcome of a reader: a value, or the faults found. -/
abbrev Checked (α : Type) := Except (List SchemaFault) α

namespace Checked

/-- One fault at the place of the value itself. -/
def fault {α : Type} (kind : FaultKind) : Checked α := .error [⟨[], kind⟩]

/-- The fault of a value that breaks a rule, which the text explains. -/
def refuse {α : Type} (reason : String) : Checked α := fault (.refused (Text.withoutHalfPairs reason))

/-- The outcome seen from one step further up. -/
def under {α : Type} (s : Step) (c : Checked α) : Checked α :=
  c.mapError fun fs => fs.map (SchemaFault.under s)

/-- Both values, or the faults of both. -/
def both {α β : Type} : Checked α → Checked β → Checked (α × β)
  | .ok a, .ok b => .ok (a, b)
  | .ok _, .error fs => .error fs
  | .error fs, .ok _ => .error fs
  | .error fs, .error gs => .error (fs ++ gs)

/-- A function of fields applied to one more field. -/
def apply {α β : Type} (f : Checked (α → β)) (a : Checked α) : Checked β :=
  (both f a).map fun (f, a) => f a

end Checked

namespace Read

/-! ### Scalars -/

def text : Value → Checked String
  | .text s => .ok s
  | _ => Checked.fault .notText

/-- Integers and floating-point numbers below this bound, of either sign, are exchanged for each
other. -/
def exchangeBound : Nat := twoPow 63

/-- What characters of a text give; half of a surrogate pair is none. -/
def ofCharacters {α : Type} (read : String → Checked α) (s : String) : Checked α :=
  if Text.hasHalfPair s then Checked.fault .notUnicode else read s

def intOfText (s : String) : Checked Int :=
  match shownInteger s with
  | .value n => .ok n
  | .tooLarge => Checked.fault .integerTooLarge
  | .none => Checked.fault .unreadableInteger

/-- An integer given as a floating-point number. -/
def intOfFloat (x : Binary64) : Checked Int :=
  match x with
  | .finite .. =>
    match x.integer? with
    | some n => if n.natAbs < exchangeBound then .ok n else Checked.fault .integerTooLarge
    | none => Checked.fault .fractionalNumber
  | _ => Checked.fault .infiniteNumber

/-- An integer. -/
def int : Value → Checked Int
  | .int n => .ok n
  | .bool b => .ok (if b then 1 else 0)
  | .float x => intOfFloat x
  | .text s => ofCharacters intOfText s
  | _ => Checked.fault .notInteger

/-- A truth value given as an integer. -/
def boolOfInt (n : Int) : Checked Bool :=
  if n = 0 then .ok false else if n = 1 then .ok true else Checked.fault .unreadableBool

/-- Whether an integer is one of 64 bits. -/
def isWord (n : Int) : Bool := -(twoPow 63 : Int) ≤ n && n < twoPow 63

/-- A truth value given as a text. -/
def boolOfText (s : String) : Checked Bool :=
  match relaxedBool? s with
  | some b => .ok b
  | none => Checked.fault .unreadableBool

def bool : Value → Checked Bool
  | .bool b => .ok b
  | .int n => if isWord n then boolOfInt n else Checked.fault .notBool
  | .float x =>
    match intOfFloat x with
    | .ok n => boolOfInt n
    | .error _ => Checked.fault .notBool
  | .text s => ofCharacters boolOfText s
  | _ => Checked.fault .notBool

/-- A floating-point number given as a text. -/
def floatOfText (s : String) : Checked Binary64 :=
  match relaxedFloat? s with
  | some x => .ok x
  | none => Checked.fault .unreadableNumber

/-- A floating-point number. -/
def float : Value → Checked Binary64
  | .float x => .ok x
  | .int n =>
    match Binary64.ofDecimal (n < 0) n.natAbs 0 with
    | .infinite _ => Checked.fault .notNumber
    | x => .ok x
  | .bool b => .ok (.ofDecimal false (if b then 1 else 0) 0)
  | .text s => ofCharacters floatOfText s
  | _ => Checked.fault .notNumber

/-- Null, or what the reader reads. -/
def nullable {α : Type} (read : Value → Checked α) : Value → Checked (Option α)
  | .null => .ok none
  | v => (read v).map some

/-! ### Lists -/

/-- The elements from an index on. -/
def itemsFrom {α : Type} (read : Value → Checked α) : Nat → List Value → Checked (List α)
  | _, [] => .ok []
  | i, v :: rest =>
    (Checked.both ((read v).under (.index i)) (itemsFrom read (i + 1) rest)).map fun (a, as) =>
      a :: as

/-- A list; other values are the given fault. -/
def listOr {α : Type} (kind : FaultKind) (read : Value → Checked α) : Value → Checked (List α)
  | .list items => itemsFrom read 0 items
  | _ => Checked.fault kind

/-- A list of exactly two elements. -/
def pair {α : Type} (read : Value → Checked α) : Value → Checked (α × α)
  | .list [] => Checked.both (missingAt 0) (missingAt 1)
  | .list [a] => Checked.both ((read a).under (.index 0)) (missingAt 1)
  | .list [a, b] => Checked.both ((read a).under (.index 0)) ((read b).under (.index 1))
  | .list _ => Checked.fault .tooLong
  | _ => Checked.fault .notTuple
where
  /-- An element that is not there. -/
  missingAt (i : Nat) : Checked α := Checked.under (.index i) (Checked.fault .missing)

/-! ### Tables -/

def table {α : Type} (read : Fields → Checked α) : Value → Checked α
  | .table fields => read fields
  | _ => Checked.fault .notTable

def required {α : Type} (fields : Fields) (name : String) (read : Value → Checked α) : Checked α :=
  Checked.under (.name name) <|
    match Mapping.get? fields name with
    | some v => read v
    | none => Checked.fault .missing

/-- A field with the value it has when it is left out. -/
def optional {α : Type} (fields : Fields) (name : String) (default : α)
    (read : Value → Checked α) : Checked α :=
  match Mapping.get? fields name with
  | some v => (read v).under (.name name)
  | none => .ok default

/-- The faults of fields that the table does not know. -/
def onlyNames (fields : Fields) (known : List String) : Checked Unit :=
  match fields.filter fun f => !known.contains f.1 with
  | [] => .ok ()
  | unknown => .error (unknown.map fun f => ⟨[.name f.1], .unknownName⟩)

/-- What a table gives whose names are all looked at: a name with half of a surrogate pair is its
only fault. -/
def named {α : Type} (fields : Fields) (c : Checked α) : Checked α :=
  if fields.any fun f => Text.hasHalfPair f.1 then Checked.fault .notUnicode else c

end Read

end UnusedDeps
