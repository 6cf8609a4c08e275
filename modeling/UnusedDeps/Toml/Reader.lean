import UnusedDeps.Toml.Scalar

/-!
# Reading configuration files

A file is a sequence of statements, each on a line of its own: a key with its
value, the head of a table, or the head of one more table of a list. Dotted keys
open the tables on their way. A table can be declared once, and the lists and
tables that a value writes out cannot be added to.
-/

namespace UnusedDeps.Toml

/-- The parts of a dotted key. -/
abbrev Key := List String

/-! ### Comments and keys -/

/-- What follows a comment, if one stands at the front. -/
def skipComment? : List Char → Option (List Char)
  | '#' :: r =>
    if (r.takeWhile (· ≠ '\n')).any isForbidden then none else some (r.dropWhile (· ≠ '\n'))
  | r => some r

/-- What follows the white space, line feeds and comments at the front. -/
def skipGap? : Nat → List Char → Option (List Char)
  | 0, _ => none
  | fuel + 1, cs =>
    match cs.dropWhile isSpaceOrNewline with
    | '#' :: r =>
      match skipComment? ('#' :: r) with
      | some r => skipGap? fuel r
      | none => none
    | r => some r

/-- What follows the white space, line feeds and comments between the items of a list. -/
def gap? (cs : List Char) : Option (List Char) := skipGap? (cs.length + 1) cs

/-- Whether a character can stand in a key without quotes. -/
def isBareKey (c : Char) : Bool := c.isAlphanum || c = '-' || c = '_'

def keyPart? : List Char → Option (String × List Char)
  | '"' :: r => basic? (r.length + 1) [] r
  | '\'' :: r => literal? r
  | cs =>
    match cs.takeWhile isBareKey with
    | [] => none
    | part => some (String.ofList part, cs.dropWhile isBareKey)

/-- The parts of the key at the front, and what follows them and the space after them. -/
def keyParts? : Nat → List Char → Option (Key × List Char)
  | 0, _ => none
  | fuel + 1, cs =>
    match keyPart? cs with
    | none => none
    | some (part, r) =>
      match r.dropWhile isSpace with
      | '.' :: r => (keyParts? fuel (r.dropWhile isSpace)).map fun (parts, r) => (part :: parts, r)
      | r => some ([part], r)

def key? (cs : List Char) : Option (Key × List Char) := keyParts? (cs.length + 1) cs

/-! ### Tables inside tables -/

/-- The table with the table at a key changed, and those on the way opened. Where a list of tables
stands on the way its last table is meant, unless lists are closed. -/
def changeAt (throughLists : Bool) (change : Fields → Option Fields) : Key → Fields → Option Fields
  | [], fields => change fields
  | k :: rest, fields =>
    match Mapping.get? fields k with
    | none => (changeAt throughLists change rest []).map fun t => Mapping.set k (.table t) fields
    | some (.table t) =>
      (changeAt throughLists change rest t).map fun t => Mapping.set k (.table t) fields
    | some (.list items) =>
      match throughLists, items.getLast? with
      | true, some (.table t) =>
        (changeAt throughLists change rest t).map fun t =>
          Mapping.set k (.list (items.dropLast ++ [.table t])) fields
      | _, _ => none
    | some _ => none

/-- The table with a field that must be new. -/
def addNew (name : String) (v : Value) (fields : Fields) : Option Fields :=
  if (Mapping.get? fields name).isSome then none else some (Mapping.set name v fields)

/-- The table with one more table in the list of a field. -/
def addToList (name : String) (fields : Fields) : Option Fields :=
  match Mapping.get? fields name with
  | none => some (Mapping.set name (.list [.table []]) fields)
  | some (.list items) => some (Mapping.set name (.list (items ++ [.table []])) fields)
  | some _ => none

/-- Whether a value is a list or a table. -/
def isNested : Value → Bool
  | .list _ => true
  | .table _ => true
  | _ => false

/-- Whether one of some keys leads to a key or to a table on its way. -/
def covers (keys : List Key) (key : Key) : Bool := keys.any fun k => k.isPrefixOf key

/-! ### Values -/

/-- How much nesting a value may hold in all. -/
def nestingBudget : Nat := 985

/-- What a list takes from the budget. -/
def listCost : Nat := 2

/-- What an inline table takes from the budget. -/
def tableCost : Nat := 3

mutual

/-- The value at the front; `budget` is the nesting that it may still hold. -/
def value : Nat → Nat → List Char → Except ReadFault (Value × List Char)
  | 0, _, _ => .error .notToml
  | fuel + 1, budget, cs =>
    match cs with
    | '"' :: _ => orRefuse ((text? cs).map fun (s, r) => (.text s, r))
    | '\'' :: _ => orRefuse ((text? cs).map fun (s, r) => (.text s, r))
    | '[' :: r =>
      if budget < listCost then .error .tooDeep
      else
        match gap? r with
        | none => .error .notToml
        | some (']' :: r) => .ok (.list [], r)
        | some r => items fuel (budget - listCost) [] r
    | '{' :: r =>
      if budget < tableCost then .error .tooDeep
      else
        match r.dropWhile isSpace with
        | '}' :: r => .ok (.table [], r)
        | r => inline fuel (budget - tableCost) [] [] r
    | _ => scalar cs

/-- The items of a list up to its end; `read` holds those so far, last first. -/
def items : Nat → Nat → List Value → List Char → Except ReadFault (Value × List Char)
  | 0, _, _, _ => .error .notToml
  | fuel + 1, budget, read, cs =>
    match value fuel budget cs with
    | .error e => .error e
    | .ok (v, r) =>
      match gap? r with
      | some (']' :: r) => .ok (.list (v :: read).reverse, r)
      | some (',' :: r) =>
        match gap? r with
        | some (']' :: r) => .ok (.list (v :: read).reverse, r)
        | some r => items fuel budget (v :: read) r
        | none => .error .notToml
      | _ => .error .notToml

/-- The fields of an inline table up to its end; `closed` holds the keys of its lists and tables. -/
def inline : Nat → Nat → Fields → List Key → List Char → Except ReadFault (Value × List Char)
  | 0, _, _, _, _ => .error .notToml
  | fuel + 1, budget, fields, closed, cs =>
    match pair fuel budget cs with
    | .error e => .error e
    | .ok (key, v, r) =>
      if covers closed key then .error .notToml
      else
        match changeAt false (addNew (key.getLastD "") v) key.dropLast fields with
        | none => .error .notToml
        | some fields =>
          match r.dropWhile isSpace with
          | '}' :: r => .ok (.table fields, r)
          | ',' :: r =>
            let closed := if isNested v then key :: closed else closed
            inline fuel budget fields closed (r.dropWhile isSpace)
          | _ => .error .notToml

def pair : Nat → Nat → List Char → Except ReadFault (Key × Value × List Char)
  | 0, _, _ => .error .notToml
  | fuel + 1, budget, cs =>
    match key? cs with
    | some (key, '=' :: r) =>
      match value fuel budget (r.dropWhile isSpace) with
      | .error e => .error e
      | .ok (v, r) => .ok (key, v, r)
    | _ => .error .notToml

end

/-! ### Statements -/

/-- What the statements so far have built. -/
structure Draft where
  root : Fields
  /-- The tables that cannot be declared again. -/
  declared : List Key
  /-- The lists and tables that a value wrote out. -/
  closed : List Key
  /-- The tables opened by dotted keys, which the next head declares. -/
  opened : List Key
  /-- The table that the statements are about. -/
  header : Key

namespace Draft

def empty : Draft := ⟨[], [], [], [], []⟩

/-- The draft when a head begins. -/
def settle (d : Draft) : Draft := { d with declared := d.opened ++ d.declared, opened := [] }

def declareTable (d : Draft) (key : Key) : Option Draft :=
  if d.declared.contains key || covers d.closed key then none
  else
    (changeAt true some key d.root).map fun root =>
      { d with root := root, declared := key :: d.declared, header := key }

/-- The draft after the head of one more table of a list; what was said about the table before it
no longer counts. -/
def declareItem (d : Draft) (key : Key) : Option Draft :=
  if covers d.closed key then none
  else
    let others (keys : List Key) : List Key := keys.filter fun k => !key.isPrefixOf k
    (changeAt true (addToList (key.getLastD "")) key.dropLast d.root).map fun root =>
      { d with
        root := root
        declared := key :: others d.declared
        closed := others d.closed
        header := key }

/-- The tables on the way of a dotted key below the header. -/
def onTheWay (d : Draft) (key : Key) : List Key :=
  (List.range (key.length - 1)).map fun i => d.header ++ key.take (i + 1)

def setValue (d : Draft) (key : Key) (v : Value) : Option Draft :=
  let way := d.onTheWay key
  if way.any d.declared.contains || covers d.closed (d.header ++ key.dropLast) then none
  else
    (changeAt true (addNew (key.getLastD "") v) (d.header ++ key.dropLast) d.root).map fun root =>
      { d with
        root := root
        opened := way ++ d.opened
        closed := if isNested v then (d.header ++ key) :: d.closed else d.closed }

end Draft

/-- The draft after the head of a table or of one more table of a list; `none` for other
statements. -/
def head? (d : Draft) : List Char → Option (Option (Draft × List Char))
  | '[' :: '[' :: r => some do
    let (key, r) ← key? (r.dropWhile isSpace)
    let d ← d.settle.declareItem key
    return (d, ← after? ']' (← after? ']' r))
  | '[' :: r => some do
    let (key, r) ← key? (r.dropWhile isSpace)
    let d ← d.settle.declareTable key
    return (d, ← after? ']' r)
  | _ => none

def statement (d : Draft) (cs : List Char) : Except ReadFault (Draft × List Char) :=
  match cs with
  | [] => .ok (d, [])
  | '\n' :: _ => .ok (d, cs)
  | '#' :: _ => .ok (d, cs)
  | _ =>
    match head? d cs with
    | some answer => orRefuse answer
    | none => do
      let (key, v, r) ← pair (2 * cs.length + 2) nestingBudget cs
      return (← orRefuse (d.setValue key v), r)

/-- The table that the statements give, each up to the end of its line. -/
def statements : Nat → Draft → List Char → Except ReadFault Fields
  | 0, _, _ => .error .notToml
  | fuel + 1, d, cs => do
    let (d, r) ← statement d (cs.dropWhile isSpace)
    match ← orRefuse (skipComment? (r.dropWhile isSpace)) with
    | [] => return d.root
    | '\n' :: r => statements fuel d r
    | _ => .error .notToml

/-- The table of a configuration file whose lines end with line feeds. -/
def read (s : String) : Except ReadFault Fields := statements (s.toList.length + 1) .empty s.toList

end UnusedDeps.Toml
