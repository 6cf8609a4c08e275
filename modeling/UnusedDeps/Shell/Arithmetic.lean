import UnusedDeps.Shell.Variable

/-!
# Arithmetic in scripts

An expression is computed while it is read, in integers of sixty-four bits that
wrap. A part whose value is not needed is read but not computed. Variables are
read as numbers and can be set.
-/

namespace UnusedDeps.Shell

namespace Arithmetic

/-- An operator with two sides. -/
inductive Binary where
  | multiply
  | divide
  | remainder
  | add
  | subtract
  | shiftLeft
  | shiftRight
  | less
  | atMost
  | greater
  | atLeast
  | equal
  | unequal
  | and
  | xor
  | or
  deriving DecidableEq, Repr

/-- An operator. -/
inductive Operator where
  | binary (b : Binary)
  /-- An assignment, which may apply an operator to the old value first. -/
  | assign (b : Option Binary)
  | conjunction
  | disjunction
  | not
  | complement
  | question
  | colon
  | opening
  | closing
  deriving DecidableEq, Repr

/-- A part of an expression. -/
inductive Symbol where
  | number (n : Int)
  | name (s : String)
  | operator (o : Operator)
  /-- A character that starts none of them. -/
  | invalid
  deriving DecidableEq, Repr

/-- An operator with two sides, or the assignment with it when an equals sign follows, and what is
left of the text. -/
def orAssign (b : Binary) (r : List Char) : Option (Operator × List Char) :=
  match r with
  | '=' :: r => some (.assign (some b), r)
  | r => some (.binary b, r)

/-- The operator that a character starts, and what is left of the text behind it. -/
def operatorAt (c : Char) (r : List Char) : Option (Operator × List Char) :=
  match c, r with
  | '*', r => orAssign .multiply r
  | '/', r => orAssign .divide r
  | '%', r => orAssign .remainder r
  | '+', r => orAssign .add r
  | '-', r => orAssign .subtract r
  | '^', r => orAssign .xor r
  | '<', '<' :: r => orAssign .shiftLeft r
  | '<', '=' :: r => some (.binary .atMost, r)
  | '<', r => some (.binary .less, r)
  | '>', '>' :: r => orAssign .shiftRight r
  | '>', '=' :: r => some (.binary .atLeast, r)
  | '>', r => some (.binary .greater, r)
  | '=', '=' :: r => some (.binary .equal, r)
  | '=', r => some (.assign none, r)
  | '!', '=' :: r => some (.binary .unequal, r)
  | '!', r => some (.not, r)
  | '&', '&' :: r => some (.conjunction, r)
  | '&', r => orAssign .and r
  | '|', '|' :: r => some (.disjunction, r)
  | '|', r => orAssign .or r
  | '~', r => some (.complement, r)
  | '?', r => some (.question, r)
  | ':', r => some (.colon, r)
  | '(', r => some (.opening, r)
  | ')', r => some (.closing, r)
  | _, _ => none

/-- The symbol that a character starts, and what is left of the text behind the character. -/
def symbolAt (c : Char) (r : List Char) : Symbol × List Char :=
  if isDigit c then
    let n := numeral (c :: r)
    (.number n.clamped, n.rest)
  else if startsName c then
    (.name (String.ofList (c :: r.takeWhile inName)), r.dropWhile inName)
  else
    match operatorAt c r with
    | some (o, rest) => (.operator o, rest)
    | none => (.invalid, [])

/-- The symbols of an expression, after others with the last one first; the bound is on the number of
characters. -/
def symbolsAfter (before : List Symbol) : Nat → List Char → List Symbol
  | _, [] => before.reverse
  | 0, _ => before.reverse
  | bound + 1, c :: r =>
    if c = ' ' || c = '\t' || c = '\n' then symbolsAfter before bound r
    else symbolsAfter ((symbolAt c r).1 :: before) bound (symbolAt c r).2

def symbols (cs : List Char) : List Symbol := symbolsAfter [] cs.length cs

/-- The integer of sixty-four bits that an integer wraps to. -/
def wrap (n : Int) : Int :=
  if n.natAbs < 0x40000000 then n else n.bmod 0x10000000000000000

theorem wrap_eq_bmod (n : Int) : wrap n = n.bmod 0x10000000000000000 := by
  unfold wrap
  split
  · rw [Int.bmod_eq_of_le] <;> omega
  · rfl

theorem wrap_eq (n : Int) (low : minInteger ≤ n) (high : n ≤ maxInteger) : wrap n = n := by
  unfold minInteger at low
  unfold maxInteger at high
  rw [wrap_eq_bmod]
  refine Int.bmod_eq_of_le ?_ ?_ <;> omega

/-- The number of a condition. -/
def ofBool (b : Bool) : Int := if b then 1 else 0

/-- An integer as a pattern of bits, changed together with another one. -/
def onBits (f : Nat → Nat → Nat) (a b : Int) : Int :=
  let bits (n : Int) : Nat := (n % 0x10000000000000000).toNat
  wrap (f (bits a) (bits b))

namespace Binary

/-- How tightly an operator binds, the tightest with zero. -/
def strength : Binary → Nat
  | .multiply => 0
  | .divide => 0
  | .remainder => 0
  | .add => 1
  | .subtract => 1
  | .shiftLeft => 2
  | .shiftRight => 2
  | .less => 3
  | .atMost => 3
  | .greater => 3
  | .atLeast => 3
  | .equal => 4
  | .unequal => 4
  | .and => 5
  | .xor => 6
  | .or => 7

/-- The strength of no operator. -/
def weakest : Nat := 8

theorem strength_lt_weakest (b : Binary) : b.strength < weakest := by cases b <;> decide

/-- The value of an operator; `none` for a division by zero. -/
def result? (operator : Binary) (a b : Int) : Option Int :=
  let shift : Nat := (b % 64).toNat
  match operator with
  | .multiply => some (wrap (a * b))
  | .divide => if b = 0 then none else some (wrap (a.tdiv b))
  | .remainder => if b = 0 then none else some (a.tmod b)
  | .add => some (wrap (a + b))
  | .subtract => some (wrap (a - b))
  | .shiftLeft => some (wrap (a * Nat.pow 2 shift))
  | .shiftRight => some (a.shiftRight shift)
  | .less => some (ofBool (a < b))
  | .atMost => some (ofBool (a ≤ b))
  | .greater => some (ofBool (b < a))
  | .atLeast => some (ofBool (b ≤ a))
  | .equal => some (ofBool (a = b))
  | .unequal => some (ofBool (a ≠ b))
  | .and => some (onBits Nat.land a b)
  | .xor => some (onBits Nat.xor a b)
  | .or => some (onBits Nat.lor a b)

end Binary

/-! ### Computing -/

/-- An action that reads an expression. -/
abbrev Reading := StateT (List Symbol) Act

/-- The complaint about an expression. -/
def fail {α : Type} (whole reason : String) : Reading α :=
  Act.fail ("arithmetic expression: " ++ reason ++ ": \"" ++ whole ++ "\"")

/-- Whether an operator is next, which is taken then. -/
def accept (operator : Operator) : Reading Bool := do
  match ← get with
  | .operator o :: rest =>
    if o = operator then
      set rest
      return true
    else return false
  | _ => return false

/-- The number that a text is, between margins; the empty text is zero. -/
def ofText (s : String) : Act Int := do
  match fewDigits? s with
  | some n => return n
  | none =>
    let n := numeral s.toList
    if n.isOutside true || !(n.rest.dropWhile isMargin).isEmpty then
      Act.fail ("Illegal number: " ++ s)
    else return n.clamped

def ofVariable (name : String) : Act Int := do ofText (((← get).value? name).getD "")

/-- The value of an operator with two sides. -/
def apply (whole : String) (operator : Binary) (a b : Int) : Reading Int :=
  match operator.result? a b with
  | some n => return n
  | none => fail whole "division by zero"

/-- The next operator with two sides that binds more tightly than the given strength, which is taken
then. -/
def tighter? (strength : Nat) : Reading (Option Binary) := do
  match ← get with
  | .operator (.binary b) :: rest =>
    if b.strength < strength then
      set rest
      return some b
    else return none
  | _ => return none

/-- The value of a part without operators with two sides; how a whole expression and such a part
are read is a parameter. -/
def primary (whole : String) (computes : Bool) (expression primary : Reading Int) :
    Reading Int := do
  match ← get with
  | .number n :: rest => set rest; return n
  | .name s :: rest =>
    set rest
    if computes then ofVariable s else return 0
  | .operator .opening :: rest =>
    set rest
    let n ← expression
    if ← accept .closing then return n else fail whole "expecting ')'"
  | .operator (.binary .add) :: rest => set rest; primary
  | .operator (.binary .subtract) :: rest => set rest; return wrap (-(← primary))
  | .operator .not :: rest => set rest; return ofBool ((← primary) = 0)
  | .operator .complement :: rest => set rest; return -(← primary) - 1
  | _ => fail whole "expecting primary"

/-- A level of expressions. -/
inductive Level where
  | expression
  | choice
  | disjunction
  | conjunction
  | primary
  /-- Operators with two sides that bind more tightly than the strength. -/
  | operators (strength : Nat)
  /-- The same, after their first operand. -/
  | operatorsAfter (strength : Nat) (first : Int)
  deriving DecidableEq, Repr

/-- The value of a part of an expression at a level, with a bound on the number of steps. A part
that is not needed is not computed. -/
def value (whole : String) : Nat → Bool → Level → Reading Int
  | 0, _, _ => fail whole "expecting primary"
  | bound + 1, computes, level => do
    let next := value whole bound
    match level with
    | .expression =>
      match ← get with
      | .name s :: .operator (.assign operator) :: rest =>
        set rest
        let n ← next computes .expression
        if !computes then return n
        else
          let n ← match operator with
            | none => pure n
            | some o => apply whole o (← ofVariable s) n
          Act.assign s (toString n)
          return n
      | _ => next computes .choice
    | .choice =>
      let a ← next computes .disjunction
      if ← accept .question then
        let b ← next (computes && a ≠ 0) .expression
        if ← accept .colon then
          let c ← next (computes && a = 0) .choice
          return if a ≠ 0 then b else c
        else fail whole "expecting ':'"
      else return a
    | .disjunction =>
      let a ← next computes .conjunction
      if ← accept .disjunction then
        let b ← next (computes && a = 0) .disjunction
        return ofBool (a ≠ 0 || b ≠ 0)
      else return a
    | .conjunction =>
      let a ← next computes (.operators Binary.weakest)
      if ← accept .conjunction then
        let b ← next (computes && a ≠ 0) .conjunction
        return ofBool (a ≠ 0 && b ≠ 0)
      else return a
    | .primary => primary whole computes (next computes .expression) (next computes .primary)
    | .operators strength =>
      next computes (.operatorsAfter strength (← next computes .primary))
    | .operatorsAfter strength a =>
      match ← tighter? strength with
      | none => return a
      | some o =>
        let b ← next computes (.operators o.strength)
        let a ← if computes then apply whole o a b else pure b
        next computes (.operatorsAfter strength a)

/-- The value of an expression. -/
def compute (whole : String) : Act Int := do
  let ss := symbols whole.toList
  let (n, rest) ← (value whole (12 * (ss.length + 2)) true .expression).run ss
  match rest with
  | [] => return n
  | _ => Act.fail ("arithmetic expression: expecting EOF: \"" ++ whole ++ "\"")

end Arithmetic

end UnusedDeps.Shell
