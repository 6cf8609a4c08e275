import UnusedDeps.Host.Process
import UnusedDeps.Number.Places
import UnusedDeps.Shell.Name

/-!
# How programs speak

The programs of the host complain under the name they were started with, quote
what they complain about, and read options in front of and between their operands.
-/

namespace UnusedDeps.Host

/-- A process that ends at once. -/
def finish (l : Launch) (code : Nat) : Finished := ⟨.exited code, l.machine⟩

def complain (l : Launch) (text : String) : Launch :=
  (l.write 2 (Text.toBytes (l.name ++ ": " ++ text ++ "\n"))).1

/-- A process that ends after a complaint. -/
def refuse (l : Launch) (text : String) (code : Nat) : Finished := finish (complain l text) code

/-- Why bytes could not be written. -/
def writeFaultText : WriteFault → String
  | .closed => "Bad file descriptor"
  | .noSpace => "No space left on device"
  | .tooLarge => "File too large"
  | .unread => "Broken pipe"

/-- How a process ends that gets the signal for what could not be written; `none` when it gets none
that ends it. -/
def stopped? (l : Launch) (f : WriteFault) : Option Finished :=
  (f.signal?.filter fun g => !l.ignored.contains g).map fun g => ⟨.killed g, l.machine⟩

/-- A process that ends when its output could not be written. -/
def unwritten (l : Launch) (f : WriteFault) (code : Nat) : Finished :=
  (stopped? l f).getD (refuse l ("write error: " ++ writeFaultText f) code)

/-- A process that writes to its output and ends, with another code when it cannot be written. -/
def printOr (l : Launch) (bytes : List UInt8) (code failureCode : Nat) : Finished :=
  if bytes.isEmpty then finish l code
  else
    match l.write 1 bytes with
    | (l, none) => finish l code
    | (l, some f) => unwritten l f failureCode

/-- A process that writes to its output and ends. -/
def print (l : Launch) (bytes : List UInt8) (code : Nat) : Finished := printOr l bytes code 1

/-- A process with what it has printed and not written yet. -/
structure Printing where
  launch : Launch
  /-- What has been printed and not written, the last part first. -/
  parts : List (List UInt8) := []
  /-- Why something that it printed before could not be written, if so. -/
  fault : Option WriteFault := none

namespace Printing

/-- What has been printed and not written. -/
def unwritten (p : Printing) : List UInt8 := p.parts.reverse.flatten

/-- The process after it printed more. -/
def add (p : Printing) (bytes : List UInt8) : Printing := { p with parts := bytes :: p.parts }

theorem unwritten_add (p : Printing) (bytes : List UInt8) :
    (p.add bytes).unwritten = p.unwritten ++ bytes := by
  simp [add, unwritten]

/-- The process after it wrote what it had printed. -/
def flush (p : Printing) : Printing :=
  let unwritten := p.unwritten
  if unwritten.isEmpty then p
  else
    let (launch, fault) := p.launch.write 1 unwritten
    { launch, fault := fault <|> p.fault }

/-- The process after a complaint, in front of which it writes what it has printed. -/
def complain (p : Printing) (text : String) : Printing :=
  let p := p.flush
  { p with launch := Host.complain p.launch text }

/-- The process at its end. It complains when something could not be written, with a reason when
that was so at the end. -/
def finish (p : Printing) (code : Nat) : Finished :=
  match p.fault with
  | none => print p.launch p.unwritten code
  | some f =>
    if f = .closed || !p.unwritten.isEmpty || f.signal?.isSome then
      Host.unwritten p.flush.launch (p.flush.fault.getD f) 1
    else refuse p.launch "write error" 1

end Printing

/-- The hint at the end of a complaint about arguments. -/
def hint (l : Launch) : String := "\nTry '" ++ l.name ++ " --help' for more information."

/-! ### Quoting -/

/-- The escapes of characters that are not shown, apart from octal ones. -/
def hiddenEscapes : List (Char × Char) :=
  [('\x07', 'a'), ('\x08', 'b'), ('\x0c', 'f'), ('\n', 'n'), ('\x0d', 'r'), ('\t', 't'),
    ('\x0b', 'v')]

def isShown (c : Char) : Bool := ' ' ≤ c && c ≤ '~'

/-- A byte that is not shown, behind a backslash. -/
def hiddenText (c : Char) : List Char :=
  match hiddenEscapes.lookup c with
  | some e => ['\\', e]
  | none => '\\' :: Places.digits 3 (Shell.number 10 (Nat.toDigits 8 c.toNat))

/-- A text in quotes, inside of which quotes and backslashes stand behind backslashes. -/
def quoted (s : String) : String :=
  let inside (c : Char) : List Char :=
    if c = '\'' || c = '\\' then ['\\', c] else if isShown c then [c] else hiddenText c
  "'" ++ String.ofList (s.toList.flatMap inside) ++ "'"

/-- Whether a character means something in a script. -/
def isMeaningful (c : Char) : Bool :=
  !isShown c || c = Char.ofNat 96 || " !\"$&'()*;<=>?[\\^|".toList.contains c

/-- Whether a name has to be quoted in a script. -/
def needsQuotes (cs : List Char) : Bool :=
  cs.isEmpty || cs.any isMeaningful || cs.head? = some '#' || cs.head? = some '~'
    || cs = ['\x7b'] || cs = ['\x7d']

/-- A name inside quotes, up to the closing one. What is not shown stands in quotes of its own, which
may be open already. -/
def quotedFrom : Bool → List Char → List Char
  | _, [] => ['\'']
  | isOpen, c :: r =>
    if c = '\'' then "'\\''".toList ++ quotedFrom false r
    else if isShown c then (if isOpen then "''".toList else []) ++ c :: quotedFrom false r
    else (if isOpen then [] else "'$'".toList) ++ hiddenText c ++ quotedFrom true r

/-- A name in quotes, as a script can hold it. One with a quote in it is gone through twice, and what
is open at its end stays so at its start. -/
def alwaysQuoted (s : String) : String :=
  let cs := s.toList
  let fitsDouble (c : Char) : Bool :=
    isShown c && !"\"$!\\".toList.contains c && c ≠ Char.ofNat 96
  if cs.contains '\'' && cs.all fitsDouble then "\"" ++ s ++ "\""
  else
    let isOpen := cs.contains '\'' && cs.getLast?.any fun c => !isShown c
    "'" ++ String.ofList (quotedFrom isOpen cs)

/-- A name as a script can hold it, in quotes when it needs them. -/
def quotedName (s : String) : String := if needsQuotes s.toList then alwaysQuoted s else s

/-- The name of a file in a complaint, where a colon could end it. -/
def quotedFile (s : String) : String :=
  if s.toList.contains ':' then alwaysQuoted s else quotedName s

/-! ### Options -/

/-- An option of a program. -/
structure ProgramOption where
  name : String
  letter : Option Char := none
  takesValue : Bool := false
  /-- Whether a value may follow an equals sign. -/
  mayTakeValue : Bool := false
  /-- Whether the option can be given by its name, too. -/
  isLong : Bool := true
  /-- Whether the arguments behind the option are not read as options at once. -/
  isLast : Bool := false

def commonOptions : List ProgramOption := [{ name := "help" }, { name := "version" }]

/-- An option with its value, if it has one. -/
structure GivenOption where
  name : String
  value : Option String := none
  deriving DecidableEq, Repr

/-- The options in a word of letters, and perhaps a last one whose value is the next argument. -/
def lettersOf (known : List ProgramOption) :
    List Char → Except String (List GivenOption × Option ProgramOption)
  | [] => .ok ([], none)
  | c :: rest =>
    match known.find? fun o => o.letter = some c with
    | none => .error ("invalid option -- '" ++ String.singleton c ++ "'")
    | some o =>
      if !o.takesValue then (lettersOf known rest).map fun r => (⟨o.name, none⟩ :: r.1, r.2)
      else if rest.isEmpty then .ok ([], some o)
      else .ok ([⟨o.name, some (String.ofList rest)⟩], none)

/-- The option that a word names in full or by a start that no other option has, with the value
behind an equals sign. -/
def namedOption (known : List ProgramOption) (cs : List Char) :
    Except String (ProgramOption × Option String) :=
  let (name, value) := Text.cut '=' cs
  let value := value.map String.ofList
  let text := String.ofList ('-' :: '-' :: name)
  let exact := known.filter fun o => o.isLong && o.name.toList = name
  let starts := known.filter fun o => o.isLong && name.isPrefixOf o.name.toList
  match if exact.isEmpty then starts else exact with
  | [o] =>
    if value.isSome && !o.takesValue && !o.mayTakeValue then
      .error ("option '--" ++ o.name ++ "' doesn't allow an argument")
    else .ok (o, value)
  | [] => .error ("unrecognized option '" ++ String.ofList ('-' :: '-' :: cs) ++ "'")
  | os =>
    .error ("option '" ++ text ++ "' is ambiguous; possibilities:"
      ++ String.join (os.map fun o => " '--" ++ o.name ++ "'"))

/-- The options and operands of a program. -/
abbrev Options := List GivenOption × List String

/-- The options among arguments and the operands; options may be looked for behind operands, too. -/
def readOptions (known : List ProgramOption) (everywhere : Bool) :
    List String → Except String Options
  | [] => .ok ([], [])
  | a :: rest => do
    let isLast (os : List GivenOption) : Bool :=
      os.any fun o => known.any fun k => k.isLast && k.name = o.name
    let withValue (o : ProgramOption) (missing : String) : Except String Options :=
      match rest with
      | [] => .error missing
      | v :: rest =>
        (if o.isLast then pure ([], rest) else readOptions known everywhere rest).map fun r =>
          (⟨o.name, some v⟩ :: r.1, r.2)
    let among (os : List GivenOption) : Except String Options :=
      (if isLast os then pure ([], rest) else readOptions known everywhere rest).map fun r =>
        (os ++ r.1, r.2)
    match a.toList with
    | ['-', '-'] => return ([], rest)
    | '-' :: '-' :: cs =>
      let (o, value) ← namedOption known cs
      if o.takesValue && value.isNone then
        withValue o ("option '--" ++ o.name ++ "' requires an argument")
      else among [⟨o.name, value⟩]
    | '-' :: c :: cs =>
      let (os, last) ← lettersOf known (c :: cs)
      match last with
      | some o =>
        let letter := String.ofList ((c :: cs).getLast?.toList)
        let r ← withValue o ("option requires an argument -- '" ++ letter ++ "'")
        return (os ++ r.1, r.2)
      | none => among os
    | _ =>
      if everywhere then
        let r ← readOptions known everywhere rest
        return (r.1, a :: r.2)
      else return ([], a :: rest)

/-- Whether a process is asked to do only what its standard says. -/
def isStrict (l : Launch) : Bool := (Mapping.get? l.env "POSIXLY_CORRECT").isSome

/-- A program that reads options and then does something with them and its operands. -/
def withOptions (known : List ProgramOption) (everywhere : Bool) (code : Nat) (l : Launch)
    (act : List GivenOption → List String → Finished) : Finished :=
  match readOptions (known ++ commonOptions) (everywhere && !isStrict l) l.args with
  | .error text => refuse l (text ++ hint l) code
  | .ok (options, operands) =>
    if options.any fun o => o.name = "help" || o.name = "version" then finish l 0
    else act options operands

end UnusedDeps.Host
