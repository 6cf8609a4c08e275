import UnusedDeps.CommandLine.Option
import UnusedDeps.Number.IntegerText
import UnusedDeps.Text.Quoted
import UnusedDeps.Value.Basic

/-!
# Reading the command line

An argument that starts with a dash is an option, by its name, by an abbreviation
that has one meaning, or with its value attached; options of one letter can stand
together. A negative number, a text with a blank and all that follows `--` is no
option. There are no other arguments, so what is left over is refused.
-/

namespace UnusedDeps.CommandLine

/-- Why a command line is refused. -/
inductive UsageFault where
  | ambiguous (argument : String) (names : List String)
  | needlessValue (option : CliOption) (value : String)
  | missingValue (option : CliOption)
  | invalidChoice (option : CliOption) (value : String) (choices : List String)
  | unknown (arguments : List String)
  deriving DecidableEq, Repr

/-- The wording of a refusal. -/
def UsageFault.message : UsageFault → String
  | .ambiguous argument names =>
    "ambiguous option: " ++ argument ++ " could match " ++ String.intercalate ", " names
  | .needlessValue option value =>
    "argument " ++ option.text ++ ": ignored explicit argument " ++ Text.quoted value
  | .missingValue option => "argument " ++ option.text ++ ": expected one argument"
  | .invalidChoice option value choices =>
    "argument " ++ option.text ++ ": invalid choice: " ++ Text.quoted value ++ " (choose from "
      ++ String.intercalate ", " (choices.map Text.quoted) ++ ")"
  | .unknown arguments => "unrecognized arguments: " ++ String.intercalate " " arguments

/-- What the reading of a command line ends with instead of options. -/
inductive Stop where
  | refused (fault : UsageFault)
  | help
  | version
  deriving DecidableEq, Repr

/-! ### Telling options apart -/

/-- What an argument is. -/
inductive Reading where
  | plain
  /-- The argument `--`. -/
  | separator
  | option (o : CliOption) (name : String) (value : Option String)
  /-- The argument looks like an option and is none. -/
  | unknown
  deriving DecidableEq, Repr

def isNegativeNumber (s : String) : Bool :=
  let isDigit (c : Char) : Bool := (digitValue? c).isSome
  let cs := if s.toList.getLast? = some '\n' then s.toList.dropLast else s.toList
  match cs with
  | '-' :: rest =>
    match Text.cut '.' rest with
    | (whole, none) => !whole.isEmpty && whole.all isDigit
    | (whole, some places) => whole.all isDigit && !places.isEmpty && places.all isDigit
  | _ => false

/-- Whether the second character of a text is a dash too. -/
def isLong (s : String) : Bool := "--".toList.isPrefixOf s.toList

/-- The options that an abbreviation, or a letter with an attached value, may mean. -/
def candidates (argument : String) : List (CliOption × String × Option String) :=
  if isLong argument then
    let (start, value) := Text.cut '=' argument.toList
    (CliOption.named.filter fun e => start.isPrefixOf e.1.toList).map fun e =>
      (e.2, e.1, value.map String.ofList)
  else
    let letter := String.ofList (argument.toList.take 2)
    CliOption.named.filterMap fun e =>
      if e.1 = letter then some (e.2, e.1, some (String.ofList (argument.toList.drop 2)))
      else if argument.toList.isPrefixOf e.1.toList then some (e.2, e.1, none)
      else none

/-- The option whose whole name stands before an equals sign, with the value after it. -/
def withValue? (argument : String) : Option Reading :=
  match Text.cut '=' argument.toList with
  | (name, some value) =>
    (CliOption.ofName? (String.ofList name)).map fun o =>
      .option o (String.ofList name) (some (String.ofList value))
  | (_, none) => none

/-- What an argument before `--` is. -/
def classify (argument : String) : Except UsageFault Reading :=
  if argument.toList.head? ≠ some '-' then .ok .plain
  else
    match CliOption.ofName? argument with
    | some o => .ok (.option o argument none)
    | none =>
      if argument = "-" then .ok .plain
      else
        match withValue? argument with
        | some r => .ok r
        | none =>
          match candidates argument with
          | [(o, name, value)] => .ok (.option o name value)
          | [] =>
            .ok (if isNegativeNumber argument || argument.toList.contains ' ' then .plain
              else .unknown)
          | several => .error (.ambiguous argument (several.map fun c => c.2.1))

/-- What each argument is; nothing after `--` is an option. -/
def classifyAll : List String → Except UsageFault (List (String × Reading))
  | [] => .ok []
  | argument :: rest =>
    if argument = "--" then .ok ((argument, .separator) :: rest.map fun a => (a, .plain))
    else do
      let reading ← classify argument
      return (argument, reading) :: (← classifyAll rest)

/-! ### Applying options -/

/-- The value of an option as its field holds it; the value `--` counts as no value at all. -/
def storedValue (value : String) : Value := if value = "--" then .list [] else .text value

/-- The fields after an option takes effect. -/
def apply (fields : Fields) (o : CliOption) (value : String) : Except Stop Fields :=
  match o.effect with
  | .showHelp => .error .help
  | .showVersion => .error .version
  | .turnOn => .ok (Mapping.set o.field (.bool true) fields)
  | .count =>
    match Mapping.get? fields o.field with
    | some (.int n) => .ok (Mapping.set o.field (.int (n + 1)) fields)
    | _ => .ok (Mapping.set o.field (.int 1) fields)
  | .store =>
    match o.choices with
    | some choices =>
      if value ≠ "--" && !choices.contains value then
        .error (.refused (.invalidChoice o value choices))
      else .ok (Mapping.set o.field (storedValue value) fields)
    | none => .ok (Mapping.set o.field (storedValue value) fields)
  | .collect =>
    match Mapping.get? fields o.field with
    | some (.list items) => .ok (Mapping.set o.field (.list (items ++ [storedValue value])) fields)
    | _ => .ok (Mapping.set o.field (.list [storedValue value]) fields)

/-- The options that stand together in one argument: those without a value, the last one, and what
is attached to the last one. -/
def cluster (o : CliOption) (name : String) :
    List Char → Except UsageFault (List CliOption × CliOption × Option String)
  | [] => .ok ([], o, none)
  | c :: rest =>
    if o.takesValue then .ok ([], o, some (String.ofList (c :: rest)))
    else if isLong name then .error (.needlessValue o (String.ofList (c :: rest)))
    else
      let next := String.ofList ['-', c]
      match CliOption.ofName? next with
      | none => .error (.needlessValue o (String.ofList (c :: rest)))
      | some p => do
        let (flags, last, value) ← cluster p next rest
        return (o :: flags, last, value)

/-- The options in an argument whose attached value may be empty. -/
def attached (o : CliOption) (name : String) (value : Option String) :
    Except UsageFault (List CliOption × CliOption × Option String) :=
  match value with
  | none => .ok ([], o, none)
  | some s =>
    if s.isEmpty then
      if o.takesValue then .ok ([], o, some s) else .error (.needlessValue o s)
    else cluster o name s.toList

/-- The fields after options that need no value take effect. -/
def applyFlags (fields : Fields) (flags : List CliOption) : Except Stop Fields :=
  flags.foldlM (fun fields o => apply fields o "") fields

/-- The fields that arguments give and the arguments that are left over. An option that needs a
value and has none attached takes the argument after it. -/
def consume (fields : Fields) : List (String × Reading) → Except Stop (Fields × List String)
  | [] => .ok (fields, [])
  | (_, .option o name value) :: rest =>
    match attached o name value with
    | .error f => .error (.refused f)
    | .ok (flags, last, value) =>
      match value, last.takesValue, rest with
      | some s, _, rest => do consume (← apply (← applyFlags fields flags) last s) rest
      | none, false, rest => do consume (← apply (← applyFlags fields flags) last "") rest
      | none, true, (s, .plain) :: rest => do
        consume (← apply (← applyFlags fields flags) last s) rest
      | none, true, _ => .error (.refused (.missingValue last))
  | (argument, _) :: rest => do
    let (fields, left) ← consume fields rest
    return (fields, argument :: left)

def read (arguments : List String) : Except Stop Fields := do
  let readings ← (classifyAll arguments).mapError .refused
  let (fields, left) ← consume [] readings
  if left.isEmpty then return fields else .error (.refused (.unknown left))

end UnusedDeps.CommandLine
