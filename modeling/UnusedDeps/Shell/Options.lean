import UnusedDeps.Shell.Expansion

/-!
# Options

Commands read options from the front of their arguments, one letter each, up to
`--` or an argument that is none. The shell has options of its own, which `set`
turns on and off, and `getopts` reads the options of a script.
-/

namespace UnusedDeps.Shell

namespace Act

/-- The number from zero on that an argument is. -/
def natural (w : String) : Act Nat :=
  match natural? w with
  | some n => return n
  | none => fail ("Illegal number: " ++ w)

/-- The letters of options in front of arguments, and the arguments behind them. -/
def letters (allowed : List Char) : List String → Act (List Char × List String)
  | [] => return ([], [])
  | a :: rest =>
    match a.toList with
    | ['-', '-'] => return ([], rest)
    | '-' :: c :: cs => do
      match (c :: cs).find? fun c => !allowed.contains c with
      | some c => fail ("Illegal option -" ++ String.singleton c)
      | none =>
        let (more, args) ← letters allowed rest
        return (c :: cs ++ more, args)
    | _ => return ([], a :: rest)

/-! ### Options of the shell -/

/-- The names of the options of the shell with their letters. -/
def optionNames : List (String × Char) :=
  [("errexit", 'e'), ("noglob", 'f'), ("ignoreeof", 'I'), ("interactive", 'i'), ("monitor", 'm'),
    ("noexec", 'n'), ("stdin", 's'), ("xtrace", 'x'), ("verbose", 'v'), ("vi", 'V'),
    ("emacs", 'E'), ("noclobber", 'C'), ("allexport", 'a'), ("notify", 'b'), ("nounset", 'u'),
    ("privileged", 'p'), ("nolog", 'l'), ("debug", 'd')]

/-- Turns an option of the shell on or off; only one way to edit lines can be on. -/
def turn (isOn : Bool) (c : Char) : Act Unit :=
  modify fun s =>
    let excluded := if !isOn then [] else if c = 'V' then ['E'] else if c = 'E' then ['V'] else []
    let others := s.options.filter fun o => o ≠ c && !excluded.contains o
    { s with options := if isOn then c :: others else others }

/-- Turns the option with a letter on or off. -/
def turnLetter (isOn : Bool) (c : Char) : Act Unit :=
  if Session.optionLetters.contains c then turn isOn c
  else fail ("Illegal option -" ++ String.singleton c)

/-- Turns the option with a name on or off. -/
def turnNamed (isOn : Bool) (name : String) : Act Unit :=
  match optionNames.lookup name with
  | some c => turn isOn c
  | none => fail ("Illegal option -o " ++ name)

/-- Turns off what only a shell with a terminal can do. -/
def refuseJobControl : Act Unit := do
  if (← get).isOn 'm' then
    complain "can't access tty; job control turned off"
    turn false 'm'

/-- The width of the names of options in their list. -/
def nameWidth : Nat := 16

/-- Shows the options of the shell, as a script can set them or with their states. -/
def listOptions (isScript : Bool) : Act Unit := do
  let s ← get
  let line (o : String × Char) : String :=
    if isScript then "set " ++ (if s.isOn o.2 then "-" else "+") ++ "o " ++ o.1 ++ "\n"
    else
      o.1 ++ String.ofList (List.replicate (nameWidth - o.1.length) ' ')
        ++ (if s.isOn o.2 then "on" else "off") ++ "\n"
  let title := if isScript then "" else "Current option settings\n"
  print (Text.toBytes (title ++ String.join (optionNames.map line))) 0

/-- Turns the options on and off that are in front of arguments, and gives the arguments behind
them; `none` when there are neither arguments nor `--`. -/
def turnOptions : List String → Act (Option (List String))
  | [] => return none
  | a :: rest =>
    match a.toList with
    | ['-', '-'] => return some rest
    | ['-'] => do
      turn false 'x'
      turn false 'v'
      return if rest.isEmpty then none else some rest
    | sign :: c :: cs => do
      if sign ≠ '-' && sign ≠ '+' then return some (a :: rest)
      else
        let isOn := sign = '-'
        (c :: cs).forM fun c => do if c ≠ 'o' then turnLetter isOn c
        if (c :: cs).contains 'o' then
          match rest with
          | name :: rest =>
            turnNamed isOn name
            turnOptions rest
          | [] =>
            listOptions (!isOn)
            return none
        else turnOptions rest
    | _ => return some (a :: rest)

/-! ### Options of scripts -/

/-- What is found where an option of a script should be. -/
inductive ScriptOption where
  /-- There is none. -/
  | absent
  | known (c : Char) (argument : Option String)
  | unknown (c : Char)
  /-- The argument of the option is missing. -/
  | bare (c : Char)
  deriving DecidableEq, Repr

/-- What is left of the argument before the next one, when some of it has been read. -/
def leftOver (args : List String) (index : Nat) (offset : Option Nat) : List Char :=
  match offset, args[index - 2]? with
  | some n, some a => if 2 ≤ index && n ≤ a.length then a.toList.drop n else []
  | _, _ => []

/-- The letters that are read next, the number of the argument behind them, and whether the end of
the options has been reached. -/
def nextLetters (args : List String) (index : Nat) (offset : Option Nat) : List Char × Nat × Bool :=
  match leftOver args index offset with
  | c :: cs => (c :: cs, index, false)
  | [] =>
    match (args[index - 1]?).map String.toList with
    | some ['-', '-'] => ([], index + 1, true)
    | some ('-' :: c :: cs) => (c :: cs, index + 1, false)
    | _ => ([], index, true)

/-- What the letters of the options that are known say of a letter: whether an argument follows it;
`none` when it is unknown. -/
def argumentOf? (c : Char) : List Char → Option Bool
  | [] => none
  | d :: ':' :: rest => if d = c then some true else argumentOf? c rest
  | d :: rest => if d = c then some false else argumentOf? c rest

/-- The option at a place of arguments, with the place behind it: the number of the next argument,
and how much of the one before it has been read. -/
def scriptOption (known : List Char) (args : List String) (index : Nat) (offset : Option Nat) :
    ScriptOption × Nat × Option Nat :=
  let (letters, index, atEnd) := nextLetters args index offset
  match atEnd, letters with
  | true, _ => (.absent, index, none)
  | _, [] => (.absent, index, none)
  | false, c :: rest =>
    let place := ((args[index - 2]?).map fun a => a.length - rest.length)
    match argumentOf? c known with
    | none => (.unknown c, index, place)
    | some false => (.known c none, index, place)
    | some true =>
      if !rest.isEmpty then (.known c (some (String.ofList rest)), index, none)
      else
        match args[index - 1]? with
        | some a => (.known c (some a), index + 1, none)
        | none => (.bare c, index, none)

/-- Sets variables to the next option of a script and its argument. -/
def getOption (known variableName : String) (args : List String) : Act Unit := do
  let s ← get
  let isBehind := args.length + 1 < s.optionIndex
  let (index, offset) := if isBehind then (1, none) else (s.optionIndex, s.optionOffset)
  let isQuiet := known.toList.head? = some ':'
  let (found, index, offset) := scriptOption known.toList args index offset
  set { s with optionIndex := 1, optionOffset := none }
  let letter ← match found with
    | .absent => pure '?'
    | .known c argument => do
      assign "OPTARG" (argument.getD "")
      pure c
    | .unknown c => do
      if isQuiet then assign "OPTARG" (String.singleton c)
      else
        writeError ("Illegal option -" ++ String.singleton c ++ "\n")
        unset "OPTARG"
      pure '?'
    | .bare c => do
      if isQuiet then
        assign "OPTARG" (String.singleton c)
        pure ':'
      else
        writeError ("No arg for -" ++ String.singleton c ++ " option\n")
        unset "OPTARG"
        pure '?'
  checkChangeable "OPTIND"
  put "OPTIND" (toString index)
  assignNamed variableName (String.singleton letter)
  modify fun s => { s with optionIndex := index, optionOffset := offset }
  setStatus (if found = .absent then 1 else 0)

end Act

end UnusedDeps.Shell
