import UnusedDeps.Host.FileKind
import UnusedDeps.Host.Program
import UnusedDeps.Shell.Numeral

/-!
# The programs that decide conditions

`test` and `[` decide a condition that is given as words, as the command of the shell
does, but with integers of any size and complaints of their own. Up to four words are
read by their number; more of them are joined by `-a` and `-o`.
-/

namespace UnusedDeps.Host

variable [Whereabouts]

namespace Condition

/-- The operators with two operands. -/
def binary : List String :=
  ["=", "!=", "==", "-nt", "-ot", "-ef", "-eq", "-ne", "-lt", "-le", "-gt", "-ge"]

/-- The words of a condition that are left, the last one of all, and what stands behind that. -/
structure Words where
  left : List String
  last : String
  behind : Option String

abbrev Deciding := ReaderT Viewer (StateT Words (Except String))

def left : Deciding (List String) := do return (← get).left

/-- Goes on by some words. -/
def advance (n : Nat) : Deciding Unit := modify fun w => { w with left := w.left.drop n }

/-- Refuses a condition that ends too early. -/
def missing {α : Type} : Deciding α := do
  throw ("missing argument after " ++ quoted (← get).last)

/-- Goes on by a word, behind which there has to be another one. -/
def advanceTo : Deciding Unit := do
  advance 1
  if (← left).isEmpty then missing

def integer (w : String) : Deciding Int := do
  let cs := w.toList.dropWhile Shell.isMargin
  let (negative, ds) := Shell.signAt cs
  let digits := ds.takeWhile Shell.isDigit
  if digits.isEmpty || !((ds.drop digits.length).dropWhile Shell.isMargin).isEmpty then
    throw ("invalid integer " ++ quoted w)
  else
    let n : Int := Shell.number 10 digits
    return if negative then -n else n

/-- Whether an operator between two integers holds. -/
def compares (operator : String) (n m : Int) : Bool :=
  match operator with
  | "-eq" => n = m
  | "-ne" => n ≠ m
  | "-gt" => m < n
  | "-ge" => m ≤ n
  | "-lt" => n < m
  | _ => n ≤ m

/-- Whether the operator between the next words holds, for which the length of a text can stand in
place of an integer. -/
def decideBinary (leftIsLength : Bool) : Deciding Bool := do
  if leftIsLength then advance 1
  let ws ← left
  let operator := (ws[1]?).getD ""
  let rightIsLength := ws[2]? = some "-l" && 3 < ws.length
  let a := (ws[0]?).getD ""
  let b := (ws[if rightIsLength then 3 else 2]?).getD ""
  let viewer ← read
  let ofFiles (holds : Bool) : Deciding Bool := do
    if leftIsLength || rightIsLength then throw (operator ++ " does not accept -l")
    advance 3
    return holds
  let isText := ["=", "==", "!="].contains operator
  match operator with
  | "-nt" => ofFiles (viewer.isLaterOrAlone a b)
  | "-ot" => ofFiles (viewer.isLaterOrAlone b a)
  | "-ef" => ofFiles (viewer.areSame a b)
  | o =>
    if isText then
      let isEqual := if rightIsLength then ws[1]? = ws[3]? else ws[0]? = ws[2]?
      advance (if rightIsLength then 4 else 3)
      return isEqual = (o ≠ "!=")
    else
      let side (isLength : Bool) (w : String) : Deciding Int :=
        if isLength then return w.length else integer w
      let n ← side leftIsLength a
      let m ← side rightIsLength b
      advance (if rightIsLength then 4 else 3)
      return compares o n m

/-- Whether a word looks like an operator with one operand. -/
def isUnary (w : String) : Bool :=
  match w.toList with
  | ['-', _] => true
  | _ => false

/-- The letters of the operators with one operand. -/
def unaryLetters : List Char := "erwxNOGfdsScbpLhugktnz".toList

/-- Whether the operator with one operand at the front holds. -/
def decideUnary : Deciding Bool := do
  let operator := ((← left).head?).getD ""
  let letter := (operator.toList[1]?).getD 'e'
  if !unaryLetters.contains letter then
    throw (quoted operator ++ ": unary operator expected")
  advanceTo
  let w := ((← left).head?).getD ""
  advance 1
  match letter with
  | 'n' => return !w.isEmpty
  | 'z' => return w.isEmpty
  | 't' =>
    let _ ← integer w
    return false
  | c => return (← read).holds c w

/-- Whether the word at the front is not empty. -/
def decideWord : Deciding Bool := do
  let w := ((← left).head?).getD ""
  advance 1
  return !w.isEmpty

/-- Whether a condition of two words holds. -/
def decideTwo : Deciding Bool := do
  let w := ((← left).head?).getD ""
  if w = "!" then
    advance 1
    return !(← decideWord)
  else if isUnary w then decideUnary
  else missing

/-- A level of conditions. -/
inductive Level where
  /-- A condition of a number of words. -/
  | ofWords (n : Nat)
  | disjunction
  | conjunction
  | term
  deriving DecidableEq, Repr

/-- How many words stand in the brackets that have been opened. -/
def bracketed (ws : List String) : Nat :=
  let inside := ((ws.drop 1).takeWhile (· ≠ ")")).length + 1
  if 4 < inside then ws.length else inside

/-- Whether the condition at a level holds that starts with the words that are left. The bound is on
the number of steps. -/
def decide : Nat → Level → Deciding Bool
  | 0, _ => missing
  | bound + 1, level => do
    let next := decide bound
    let ws ← left
    let first := (ws.head?).getD ""
    let three : Deciding Bool := do
      let ws ← left
      let middle := (ws[1]?).getD ""
      if binary.contains middle then decideBinary false
      else if ws.head? = some "!" then
        advanceTo
        return !(← decideTwo)
      else if ws.head? = some "(" && ws[2]? = some ")" then
        advance 1
        let holds ← decideWord
        advance 1
        return holds
      else if middle = "-a" || middle = "-o" then next .disjunction
      else throw (quoted middle ++ ": binary operator expected")
    match level with
    | .ofWords 1 => decideWord
    | .ofWords 2 => decideTwo
    | .ofWords 3 => three
    | .ofWords n =>
      if n = 4 && first = "!" then
        advanceTo
        return !(← three)
      else if n = 4 && first = "(" && ws[3]? = some ")" then
        advance 1
        let holds ← decideTwo
        advance 1
        return holds
      else if ws.isEmpty then missing
      else next .disjunction
    | .disjunction =>
      let a ← next .conjunction
      if (← left).head? = some "-o" then
        advance 1
        return (← next .disjunction) || a
      else return a
    | .conjunction =>
      let a ← next .term
      if (← left).head? = some "-a" then
        advance 1
        return (← next .conjunction) && a
      else return a
    | .term =>
      match ws with
      | [] => missing
      | "!" :: _ =>
        advanceTo
        return !(← next .term)
      | "(" :: _ =>
        advanceTo
        let holds ← next (.ofWords (bracketed (← left)))
        match (← left).head? <|> (← get).behind with
        | none => throw (quoted ")" ++ " expected")
        | some w =>
          if w ≠ ")" then throw (quoted ")" ++ " expected, found " ++ quoted w)
          advance 1
          return holds
      | w :: rest =>
        if 4 ≤ ws.length && w = "-l" && binary.contains ((ws[2]?).getD "") then decideBinary true
        else if 3 ≤ ws.length && rest.head?.any binary.contains then decideBinary false
        else if isUnary w then decideUnary
        else decideWord

/-- Whether words hold, behind which another one may stand, or why they are no condition. -/
def ofWords (v : Viewer) (ws : List String) (behind : Option String) : Except String Bool := do
  if ws.isEmpty then return false
  let bound := 4 * (ws.length + 2)
  let (holds, words) ← ((decide bound (.ofWords ws.length)).run v).run
    ⟨ws, (ws.getLast?).getD "", behind⟩
  match words.left with
  | [] => return holds
  | w :: _ => throw ("extra argument " ++ quoted w)

end Condition

def decided (l : Launch) (words : List String) (behind : Option String) : Finished :=
  match Condition.ofWords (Viewer.ofLaunch l) words behind with
  | .ok holds => finish l (if holds then 0 else 1)
  | .error reason => refuse l reason 2

/-- The `test` program. -/
def runTest (l : Launch) : Finished := decided l l.args none

/-- The `[` program, which ends with a bracket. -/
def runBracket (l : Launch) : Finished :=
  if l.args.getLast? = some "]" then decided l l.args.dropLast (some "]")
  else refuse l ("missing " ++ quoted "]") 2

end UnusedDeps.Host
