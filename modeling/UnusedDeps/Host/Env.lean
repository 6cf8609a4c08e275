import UnusedDeps.Host.Cat
import UnusedDeps.Host.SignalName

/-!
# Programs in another environment

`env` changes variables, the directory and what signals do, and starts a program in
its own place; without a program it writes the variables. One of its options is a text
of several arguments, which is split first and may refer to variables.
-/

namespace UnusedDeps.Host

variable [Whereabouts]

/-! ### Splitting -/

/-- The blanks between arguments in a text. -/
def isBlank (c : Char) : Bool := c = ' ' || ('\t' ≤ c && c ≤ '\x0d')

/-- The escapes in such a text that are another character. -/
def splitEscapes : List (Char × Char) :=
  [('"', '"'), ('#', '#'), ('$', '$'), ('\'', '\''), ('\\', '\\'), ('f', '\x0c'), ('n', '\n'),
    ('r', '\x0d'), ('t', '\t'), ('v', '\x0b')]

/-- A text that is being split: the arguments so far, the last one first and its last character
first. -/
structure Splitting where
  args : List (List Char) := []
  /-- What is told about variables, the last one first. -/
  remarks : List String := []
  /-- Whether the next character starts an argument. -/
  isApart : Bool := true
  inSingle : Bool := false
  inDouble : Bool := false

namespace Splitting

/-- An argument has been started. -/
def start (s : Splitting) : Splitting :=
  if s.isApart then { s with args := [] :: s.args, isApart := false } else s

/-- One more character of an argument. -/
def push (s : Splitting) (c : Char) : Splitting :=
  match s.start with
  | t => { t with args := match t.args with
    | a :: rest => (c :: a) :: rest
    | [] => [[c]] }

def arguments (s : Splitting) : List String := s.args.reverse.map fun a => String.ofList a.reverse

end Splitting

/-- The name of a variable in braces behind a dollar sign, and the number of characters that it takes
with them. -/
def bracedName? (r : List Char) : Option (String × Nat) :=
  match r with
  | '\x7b' :: rest =>
    let name := rest.takeWhile Shell.inName
    if Shell.isName (String.ofList name) && rest[name.length]? = some '\x7d' then
      some (String.ofList name, name.length + 2)
    else none
  | _ => none

/-- What is told about a variable that a text refers to. -/
def variableRemark (name : String) (value : Option String) : String :=
  let reference := "$\x7b" ++ name ++ "\x7d"
  match value with
  | some v => "expanding " ++ reference ++ " into " ++ quoted v
  | none => "replacing " ++ reference ++ " with null string"

/-- Why no more of a text is split. -/
inductive SplitEnd where
  | done
  | refused (reason : String)
  deriving DecidableEq, Repr

/-- The text after one more character, in front of others, and how many of those belong to it. -/
def splitStep (env : Environment) (s : Splitting) (c : Char) (r : List Char) :
    Except SplitEnd (Splitting × Nat) :=
  let isQuoted := s.inSingle || s.inDouble
  let refuse (reason : String) : Except SplitEnd (Splitting × Nat) := .error (.refused reason)
  if c = '\'' && !s.inDouble then .ok ({ s.start with inSingle := !s.inSingle }, 0)
  else if c = '"' && !s.inSingle then .ok ({ s.start with inDouble := !s.inDouble }, 0)
  else if isBlank c && !isQuoted then .ok ({ s with isApart := true }, 0)
  else if c = '#' && s.isApart then .error .done
  else if c = '\\' then
    if s.inSingle && r.head? ≠ some '\\' && r.head? ≠ some '\'' then .ok (s.push '\\', 0)
    else
      match r.head? with
      | none => refuse "invalid backslash at end of string in -S"
      | some '_' => .ok (if s.inDouble then s.push ' ' else { s with isApart := true }, 1)
      | some 'c' =>
        if s.inDouble then refuse "'\\c' must not appear in double-quoted -S string"
        else .error .done
      | some e =>
        match splitEscapes.lookup e with
        | some c => .ok (s.push c, 1)
        | none => refuse ("invalid sequence '\\" ++ String.singleton e ++ "' in -S")
  else if c = '$' && !s.inSingle then
    match bracedName? r with
    | some (name, taken) =>
      let value := Mapping.get? env name
      let s := { s with remarks := variableRemark name value :: s.remarks }
      .ok (value.elim s fun v => v.toList.foldl Splitting.push s.start, taken)
    | none =>
      refuse ("only $\x7bVARNAME\x7d expansion is supported, error at: " ++ String.ofList (c :: r))
  else .ok (s.push c, 0)

/-- A text when it is split, whose first `skip` characters have been read, and what is wrong with it,
if anything is. -/
def splitText (env : Environment) : Nat → Splitting → List Char → Splitting × Option String
  | _, s, [] =>
    (s, if s.inSingle || s.inDouble then some "no terminating quote in -S string" else none)
  | skip + 1, s, _ :: r => splitText env skip s r
  | 0, s, c :: r =>
    match splitStep env s c r with
    | .error .done => (s, none)
    | .error (.refused reason) => (s, some reason)
    | .ok (s, taken) => splitText env taken s r

/-! ### Options -/

/-- The options of `env`. -/
def envOptions : List ProgramOption :=
  let signals (name : String) : ProgramOption := { name, mayTakeValue := true }
  [{ name := "ignore-environment", letter := some 'i' }, { name := "null", letter := some '0' },
    { name := "unset", letter := some 'u', takesValue := true },
    { name := "chdir", letter := some 'C', takesValue := true },
    signals "default-signal", signals "ignore-signal", signals "block-signal",
    { name := "list-signal-handling" }, { name := "debug", letter := some 'v' },
    { name := "split-string", letter := some 'S', takesValue := true, isLast := true }]

/-- What `env` is told. -/
structure EnvOrder where
  options : List GivenOption
  operands : List String
  launch : Launch

def EnvOrder.has (o : EnvOrder) (name : String) : Bool := o.options.any fun g => g.name = name

def EnvOrder.values (o : EnvOrder) (name : String) : List String :=
  o.options.filterMap fun g => if g.name = name then g.value else none

/-- The process after it told something beside what it does. -/
def remark (l : Launch) (text : String) : Launch := (l.write 2 (Text.toBytes (text ++ "\n"))).1

def splitRemarks (text : String) (parts : List String) : List String :=
  match parts with
  | [] => []
  | first :: others =>
    ("split -S:  " ++ quoted text) :: (" into:    " ++ quoted first)
      :: others.map fun p => "     &    " ++ quoted p

/-- The options and operands among arguments, with the texts split, or the process that ends because
of what is wrong with them. The bound is on the number of texts. -/
def readOrder (l : Launch) : Nat → List GivenOption → List String → Except Finished EnvOrder
  | 0, _, _ => .error (finish { l with machine := l.machine.pass Machine.forever } 0)
  | bound + 1, before, args =>
    match readOptions (envOptions ++ commonOptions) false args with
    | .error text => .error (refuse l (text ++ hint l) 125)
    | .ok (options, operands) =>
      let options := before ++ options
      match options.getLast? with
      | some ⟨"split-string", some text⟩ =>
        let (split, reason) := splitText l.env 0 {} text.toList
        let remarks := if options.any fun o => o.name = "debug" then split.remarks.reverse else []
        let l := remarks.foldl remark l
        match reason with
        | some reason => .error (refuse l reason 125)
        | none =>
          let parts := split.arguments
          let told := if options.any fun o => o.name = "debug" then splitRemarks text parts else []
          readOrder (told.foldl remark l) bound options.dropLast (parts ++ operands)
      | _ => .ok ⟨options, operands, l⟩

/-- How many texts may be split. -/
def maxSplits : Nat := 1000

/-! ### Signals -/

/-- What is to be done about a signal. -/
structure SignalOrder where
  /-- Whether the signal does nothing; `none` when that stays as it is. -/
  ignores : Option Bool := none
  /-- Whether the signal was named, so that it has to be possible. -/
  isNamed : Bool := false
  /-- Whether the signal has to wait; `none` when that stays as it is. -/
  blocks : Option Bool := none
  deriving DecidableEq, Repr

/-- The signals that the value of an option names between commas, all when there is no value, or the
name of what is none. -/
def signalsOf (value : Option String) : Except String (List Nat) :=
  match value with
  | none => .ok namedSignals
  | some text =>
    ((Text.splitOnChar ',' text).filter fun n => !n.isEmpty).mapM fun n =>
      match signalOf? n with
      | some s => .ok s
      | none => .error n

/-- An order about a signal after an option, which may name it. -/
def SignalOrder.after (o : SignalOrder) (option : String) (isNamed : Bool) : SignalOrder :=
  match option with
  | "block-signal" => { o with blocks := some true }
  | "ignore-signal" => { o with ignores := some true, isNamed }
  | _ => ⟨some false, isNamed, some false⟩

/-- What options say about signals, in the order of their numbers, or the name of what is none. -/
def signalOrders (options : List GivenOption) : Except String (Mapping Nat SignalOrder) := do
  let orders ← options.foldlM (fun orders o => do
    if !(["default-signal", "ignore-signal", "block-signal"].contains o.name) then return orders
    let signals ← signalsOf o.value
    return signals.foldl (fun os s =>
      let old := (Mapping.get? os s).getD {}
      Mapping.set s (old.after o.name o.value.isSome) os) orders) ([] : Mapping Nat SignalOrder)
  return sortByKey (fun e => e.1) orders

/-- The process after an order about what a signal does, or why that cannot be done. -/
def obey (isTold : Bool) (l : Launch) (signal : Nat) (order : SignalOrder) :
    Except String Launch :=
  match order.ignores with
  | none => .ok l
  | some ignores =>
    let fails := Shell.Signal.certain.contains signal
    if order.isNamed && fails then
      .error ("failed to set signal action for signal " ++ toString signal ++ ": Invalid argument")
    else
      let others := l.ignored.filter (· ≠ signal)
      let l := if fails then l
        else { l with ignored := if ignores then others ++ [signal] else others }
      let text := "Reset signal " ++ signalName signal ++ " (" ++ toString signal ++ ") to "
        ++ (if ignores then "IGNORE" else "DEFAULT") ++ (if fails then " (failure ignored)" else "")
      .ok (if isTold then remark l text else l)

/-- What is told about a signal that has to wait, or no longer. -/
def maskRemark? (e : Nat × SignalOrder) : Option String :=
  e.2.blocks.map fun blocks =>
    "signal " ++ signalName e.1 ++ " (" ++ toString e.1 ++ ") mask set to "
      ++ (if blocks then "BLOCK" else "UNBLOCK")

def blockedBy (orders : Mapping Nat SignalOrder) : List Nat :=
  (orders.filter fun e => e.2.blocks = some true && !Shell.Signal.certain.contains e.1).map (·.1)

/-- The lines that tell which signals do nothing and which ones have to wait. -/
def signalLines (ignored blocked : List Nat) : List String :=
  let blanks (n : Nat) : String := String.ofList (List.replicate n ' ')
  (namedSignals.filter fun s => ignored.contains s || blocked.contains s).map fun s =>
    let states := (if blocked.contains s then ["BLOCK"] else [])
      ++ (if ignored.contains s then ["IGNORE"] else [])
    let name := signalName s
    let number := toString s
    name ++ blanks (10 - name.length) ++ " (" ++ blanks (2 - number.length) ++ number ++ "): "
      ++ String.intercalate "," states

/-! ### Starting -/

/-- Starts the program in a file, which is a script of the shell when it names no interpreter. -/
def startScript (start : Launcher) (l : Launch) (file : String) : Except FileFault Finished :=
  match start file l with
  | .error .badFormat => start "/bin/sh" { l with name := "/bin/sh", args := file :: l.args }
  | r => r

/-- Starts the first of several files that can be started, after a fault of those before. -/
def startFirst (start : Launcher) (l : Launch) (fault : FileFault) :
    List String → Except FileFault Finished
  | [] => .error fault
  | file :: rest =>
    match startScript start l file with
    | .ok f => .ok f
    | .error f =>
      if f = .missing || f = .notDirectory || f = .notPermitted then
        startFirst start l (if fault = .notPermitted then fault else f) rest
      else .error f

/-- Starts a program by its name with the arguments, the variables and the directory of a process. -/
def startNamed (start : Launcher) (l : Launch) (name : String) : Finished :=
  let search := (Mapping.get? l.env "PATH").getD defaultSearch
  let named := { l with name }
  let result := if name.toList.contains '/' then startScript start named name
    else startFirst start named .missing (if name.isEmpty then [] else searchFiles search name)
  match result with
  | .ok f => f
  | .error f =>
    let l := complain l (quoted name ++ ": " ++ faultText f)
    if f ≠ .missing then finish l 126
    else if name.toList.any isBlank then
      refuse l "use -[v]S to pass options in shebang lines" 127
    else finish l 127

/-- The process after it told something, if it is asked to. -/
def EnvOrder.tell (o : EnvOrder) (l : Launch) (texts : List String) : Launch :=
  if o.has "debug" then texts.foldl remark l else l

/-- The process with the variables that an order leaves and sets, and the name of one that cannot be
taken away, if there is one. -/
def withVariables (o : EnvOrder) (isBare : Bool) (settings : List String) :
    Launch × Option String :=
  let unset (l : Launch) (name : String) : Except (Launch × String) Launch :=
    let l := o.tell l ["unset:    " ++ name]
    if name.isEmpty || name.toList.contains '=' then .error (l, name)
    else .ok { l with env := l.env.filter fun v => v.1 ≠ name }
  let bare := if isBare then .ok (o.tell { o.launch with env := [] } ["cleaning environ"])
    else (o.values "unset").foldlM unset o.launch
  match bare with
  | .error (l, name) => (l, some name)
  | .ok l =>
    (settings.foldl (fun l s =>
      let l := o.tell l ["setenv:   " ++ s]
      let (name, value) := Text.cut '=' s.toList
      let setting := (String.ofList name, String.ofList (value.getD []))
      { l with env := Environment.overlay l.env [setting] }) l, none)

/-- The process in the directory that options ask for, and the complaint about that, if there is
one. -/
def inDirectory (o : EnvOrder) (l : Launch) : Launch × Option String :=
  match (o.values "chdir").getLast? with
  | none => (l, none)
  | some directory =>
    let l := o.tell l ["chdir:    " ++ alwaysQuoted directory]
    let refused (f : FileFault) : Launch × Option String :=
      (l, some ("cannot change directory to " ++ alwaysQuoted directory ++ ": " ++ faultText f))
    match (Viewer.ofLaunch l).nodeAt directory with
    | .ok .directory => ({ l with directory := l.path directory }, none)
    | .ok _ => refused .notDirectory
    | .error f => refused f

/-- What is told about a program that is about to start: its name and each of its arguments. -/
def orderLines (name : String) (args : List String) : List String :=
  ("executing: " ++ name) :: (name :: args).zipIdx.map fun a =>
    "   arg[" ++ toString a.2 ++ "]= " ++ quoted a.1

/-- The process that starts a program as an order asks, in an environment that is already set. -/
def runOrdered (start : Launcher) (o : EnvOrder) (l : Launch) (name : String)
    (args : List String) : Finished :=
  match signalOrders o.options with
  | .error n => refuse l (quoted n ++ ": invalid signal" ++ hint l) 125
  | .ok orders =>
    match orders.foldlM (fun l e => obey (o.has "debug") l e.1 e.2) l with
    | .error text => refuse l text 125
    | .ok l =>
      let l := o.tell l (orders.filterMap maskRemark?)
      let blocked := blockedBy orders
      let l := if o.has "list-signal-handling" then
        (signalLines l.ignored blocked).foldl remark l else l
      match inDirectory o l with
      | (l, some text) => refuse l text 125
      | (l, none) =>
        let l := if o.has "debug" then (orderLines name args).foldl remark l else l
        startNamed start { l with args, ignored := l.ignored ++ blocked } name

/-- The `env` program. -/
def runEnv (start : Launcher) (l : Launch) : Finished :=
  match readOrder l maxSplits [] l.args with
  | .error f => f
  | .ok o =>
    if o.has "help" || o.has "version" then finish o.launch 0
    else
      let isDash := o.operands.head? = some "-"
      let operands := if isDash then o.operands.tail else o.operands
      let isSetting (s : String) : Bool := s.toList.contains '='
      let isBare := isDash || o.has "ignore-environment"
      match withVariables o isBare (operands.takeWhile isSetting), operands.dropWhile isSetting with
      | (l, some name), _ => refuse l ("cannot unset " ++ quoted name ++ ": Invalid argument") 125
      | (l, none), [] =>
        if o.has "chdir" then
          refuse l ("must specify command with --chdir (-C)" ++ hint l) 125
        else
          let ending := if o.has "null" then "\x00" else "\n"
          let line (v : String × String) : String := v.1 ++ "=" ++ v.2 ++ ending
          printOr l (Text.toBytes (String.join (l.env.map line))) 0 125
      | (l, none), name :: args =>
        if o.has "null" then
          refuse l ("cannot specify --null (-0) with command" ++ hint l) 125
        else runOrdered start o l name args

/-! ### Writing variables -/

/-- The options of `printenv`, two of which it knows but does not take. -/
def printenvOptions : List ProgramOption :=
  [{ name := "null", letter := some '0' },
    { name := "i", letter := some 'i', isLong := false, isLast := true },
    { name := "u", letter := some 'u', takesValue := true, isLong := false, isLast := true }]

/-- The `printenv` program: writes the values of variables, or all variables. -/
def runPrintenv (l : Launch) : Finished :=
  match readOptions (printenvOptions ++ commonOptions) false l.args with
  | .error text => refuse l (text ++ hint l) 2
  | .ok (options, names) =>
    let has (name : String) : Bool := options.any fun o => o.name = name
    let ending := if has "null" then "\x00" else "\n"
    if has "i" || has "u" then finish (remark l (hint l).trimAsciiStart.toString) 2
    else if has "help" || has "version" then finish l 0
    else if names.isEmpty then
      let line (v : String × String) : String := v.1 ++ "=" ++ v.2 ++ ending
      printOr l (Text.toBytes (String.join (l.env.map line))) 0 2
    else
      let value? (name : String) : Option String :=
        if name.toList.contains '=' then none else Mapping.get? l.env name
      let values := names.filterMap value?
      let code := if values.length = names.length then 0 else 1
      printOr l (Text.toBytes (String.join (values.map (· ++ ending)))) code 2

end UnusedDeps.Host
