import UnusedDeps.Host.FileKind
import UnusedDeps.Shell.Variable

/-!
# Conditions

`test` decides a condition that is given as words: texts, integers and files are
compared or looked at, and conditions are joined by `!`, `-a`, `-o` and brackets.
A word that could be an operator counts as a text where an operator would have no
operand.
-/

namespace UnusedDeps.Shell

variable [Whereabouts]

namespace Condition

/-- The operators with one operand. -/
def unary : List String :=
  ["-r", "-w", "-x", "-e", "-f", "-d", "-c", "-b", "-p", "-u", "-g", "-k", "-s", "-t", "-z", "-n",
    "-h", "-L", "-O", "-G", "-S"]

/-- The operators with two operands. -/
def binary : List String :=
  ["=", "!=", "<", ">", "-eq", "-ne", "-gt", "-ge", "-lt", "-le", "-nt", "-ot", "-ef"]

/-- What a word is in a condition. -/
inductive Role where
  | ending
  | operand
  | unary
  | binary
  | negation
  | conjunction
  | disjunction
  | opening
  | closing
  deriving DecidableEq, Repr

/-- Whether an operator with one operand is followed by something that makes it an operand. -/
def isOperand : List String → Bool
  | [] => true
  | [_] => false
  | s :: _ :: _ => binary.contains s

/-- The role of the first of some words. -/
def role : List String → Role
  | [] => .ending
  | w :: rest =>
    if unary.contains w then if isOperand rest then .operand else .unary
    else if binary.contains w then .binary
    else
      match w with
      | "!" => .negation
      | "-a" => .conjunction
      | "-o" => .disjunction
      | "(" => if rest.isEmpty then .operand else .opening
      | ")" => .closing
      | _ => .operand

/-- Deciding a condition in a session; the current word is the first one of those that are left. -/
abbrev Deciding := ReaderT Session (StateT (List String) (Except String))

def refuse {α : Type} (reason : String) : Deciding α := throw reason

/-- The role of the word behind the current one. -/
def nextRole : Deciding Role := do return role (← get).tail

/-- Goes on by some words. -/
def advance (n : Nat) : Deciding Unit := modify fun ws => ws.drop n

/-- The integer that a word is, between margins and behind a sign. -/
def integer (w : String) : Deciding Int := do
  match fewDigits? w with
  | some n => return n
  | none =>
    let (negative, ds) := signAt (w.toList.dropWhile isMargin)
    let digits := ds.takeWhile isDigit
    let n : Int := number 10 digits
    let n := if negative then -n else n
    if digits.isEmpty || !((ds.drop digits.length).dropWhile isMargin).isEmpty
        || n < minInteger || maxInteger < n then
      refuse ("Illegal number: " ++ w)
    else return n

def holdsUnary (operator w : String) : Deciding Bool := do
  match operator with
  | "-z" => return w.isEmpty
  | "-n" => return !w.isEmpty
  | "-t" =>
    let _ ← integer w
    return false
  | o => return (← read).viewer.holds ((o.toList[1]?).getD 'e') w

def holdsBinary (operator a b : String) : Deciding Bool := do
  let viewer := (← read).viewer
  match operator with
  | "=" => return a = b
  | "!=" => return a ≠ b
  | "<" => return a < b
  | ">" => return b < a
  | "-ef" => return viewer.areSame a b
  | "-nt" => return viewer.isLater a b
  | "-ot" => return viewer.isLater b a
  | o =>
    let n ← integer a
    let m ← integer b
    return match o with
      | "-eq" => n = m
      | "-ne" => n ≠ m
      | "-gt" => m < n
      | "-ge" => m ≤ n
      | "-lt" => n < m
      | _ => n ≤ m

/-- A level of conditions. -/
inductive Level where
  | disjunction
  | conjunction
  | negation
  | primary
  deriving DecidableEq, Repr

/-- Whether the condition at a level holds whose first word, with a role, is the current one; the
last word of it is the current one afterwards. The bound is on the number of steps. -/
def holds : Nat → Level → Role → Deciding Bool
  | 0, _, _ => refuse "unexpected operator"
  | bound + 1, level, r => do
    let next := holds bound
    let current : Deciding String := do return ((← get).head?).getD ""
    match level with
    | .disjunction =>
      let a ← next .conjunction r
      if (← nextRole) = .disjunction then
        advance 2
        let b ← next .disjunction (role (← get))
        return a || b
      else return a
    | .conjunction =>
      let a ← next .negation r
      if (← nextRole) = .conjunction then
        advance 2
        let b ← next .conjunction (role (← get))
        return a && b
      else return a
    | .negation =>
      if r = .negation then
        let r ← nextRole
        if r ≠ .ending then advance 1
        return !(← next .negation r)
      else next .primary r
    | .primary =>
      match r with
      | .ending => return false
      | .opening =>
        advance 1
        let r := role (← get)
        if r = .closing then return false
        else
          let a ← next .disjunction r
          advance 1
          if role (← get) = .closing then return a else refuse "closing paren expected"
      | .unary =>
        let operator ← current
        advance 1
        if (← get).isEmpty then refuse (operator ++ ": argument expected")
        else holdsUnary operator (← current)
      | _ =>
        if (← nextRole) = .binary then
          let a ← current
          advance 1
          let operator ← current
          advance 1
          if (← get).isEmpty then refuse (operator ++ ": argument expected")
          else holdsBinary operator a (← current)
        else return !(← current).isEmpty

def decideWords (ws : List String) (first : Role) : Deciding Bool := do
  set ws
  let a ← holds (6 * (ws.length + 2)) .disjunction first
  match ← get with
  | w :: _ :: _ => refuse (w ++ ": unexpected operator")
  | _ => return a

/-- Whether words hold, or do not when that is asked. An operator between two of three words comes
first, then brackets around three or four; a negation of three or four asks for the opposite, however
many there are. -/
def ofWords (isAsked : Bool) (ws : List String) : Deciding Bool :=
  let decided (ws : List String) (first : Role) : Deciding Bool := do
    return (← decideWords ws first) == isAsked
  match ws with
  | [] => return false
  | [a, b, c] =>
    if binary.contains b then return (← holdsBinary b a c) == isAsked
    else if a = "(" && c = ")" then decided [b] (role [b])
    else if a = "!" then ofWords false [b, c]
    else decided ws (role ws)
  | [a, b, c, d] =>
    if a = "(" && d = ")" then decided [b, c] (role [b, c])
    else if a = "!" then ofWords false [b, c, d]
    else decided ws (role ws)
  | ws => decided ws (role ws)

end Condition

/-- Whether the words of `test` hold in a session, or why they are no condition. -/
def Session.holds (s : Session) (ws : List String) : Except String Bool :=
  ((Condition.ofWords true ws).run s).run' []

end UnusedDeps.Shell
