import UnusedDeps.Shell.Numeral
import UnusedDeps.Shell.Session

/-!
# Variables of the shell

Variables are set, removed and given to commands. A function can make variables its
own, which are what they were when it ends. Some variables steer the shell: with
`PATH` it forgets where it has found programs, and `OPTIND` must be a number, that
of the argument whose options are read next.
-/

namespace UnusedDeps.Shell

namespace Act

/-- How long it takes to keep a byte of a value. -/
def byteTime : Nat := 100

/-- Does what a change of a variable asks for, whose new value is given. -/
def heedChange (name value : String) : Act Unit := do
  if name = "PATH" then modify fun s => { s with found := [] }
  else if name = "OPTIND" then
    match natural? value with
    | some n => modify fun s => { s with optionIndex := max 1 n, optionOffset := none }
    | none => fail ("Illegal number: " ++ value)

/-- Gives a variable a value without heeding it; the variable stays exported when it was. -/
def put (name value : String) : Act Unit := do
  spend (byteTime * value.utf8ByteSize)
  let s ← get
  let old := (Mapping.get? s.bindings name).getD { value := none }
  let exported := old.exported || s.isOn 'a'
  set { s with bindings := Mapping.set name { old with value := some value, exported } s.bindings }

/-- Refuses to change a variable that must not be changed. -/
def checkChangeable (name : String) : Act Unit := do
  if (Mapping.get? (← get).bindings name).any Variable.readOnly then fail (name ++ ": is read only")

/-- Sets a variable. -/
def assign (name value : String) : Act Unit := do
  checkChangeable name
  heedChange name value
  put name value

/-- Sets a variable whose name is not known to be one. -/
def assignNamed (name value : String) : Act Unit :=
  if isName name then assign name value else fail (name ++ ": bad variable name")

/-- Changes what a variable is without changing its value. -/
def mark (name : String) (change : Variable → Variable) : Act Unit :=
  modify fun s =>
    let old := (Mapping.get? s.bindings name).getD { value := none }
    { s with bindings := Mapping.set name (change old) s.bindings }

/-- Whether a variable stays, without a value, when it is removed: one that every shell has or that
is a function's own. -/
def staysKnown (s : Session) (name : String) : Bool :=
  (Mapping.get? Session.ownVariables name).isSome
    || s.hidden.any fun h => h.bindings.any fun v => v.1 = name

/-- Removes a variable. -/
def unset (name : String) : Act Unit := do
  checkChangeable name
  heedChange name ""
  if staysKnown (← get) name then mark name fun v => { v with value := none }
  else modify fun s => { s with bindings := s.bindings.filter fun v => v.1 ≠ name }

/-! ### Variables of functions -/

/-- Makes a variable the own one of the function that runs. -/
def hide (name : String) : Act Unit :=
  modify fun s =>
    match s.hidden with
    | h :: rest =>
      if h.bindings.any fun v => v.1 = name then s
      else
        let own := (name, Mapping.get? s.bindings name) :: h.bindings
        { s with hidden := { h with bindings := own } :: rest }
    | [] => s

/-- Makes the options of the shell the own ones of the function that runs. -/
def hideOptions : Act Unit :=
  modify fun s =>
    match s.hidden with
    | h :: rest => { s with hidden := { h with options := h.options.or (some s.options) } :: rest }
    | [] => s

def giveBack (v : String × Option Variable) : Act Unit := do
  let others := (← get).bindings.filter fun w => w.1 ≠ v.1
  match v.2 with
  | some old =>
    modify fun s => { s with bindings := Mapping.set v.1 old s.bindings }
    heedChange v.1 (old.value.getD "")
  | none =>
    modify fun s => { s with bindings := others }
    heedChange v.1 ""

/-- An action in which variables can be hidden, which are what they were afterwards. -/
def withFrame (action : Act Unit) : Act Unit := do
  modify fun s => { s with hidden := {} :: s.hidden }
  andFinally action do
    match (← get).hidden with
    | h :: rest =>
      modify fun s => { s with hidden := rest, options := h.options.getD s.options }
      h.bindings.forM giveBack
    | [] => return ()

end Act

end UnusedDeps.Shell
