import UnusedDeps.Host.Condition
import UnusedDeps.Host.Env
import UnusedDeps.Host.Interpreter
import UnusedDeps.Host.Printf
import UnusedDeps.Shell.Invocation

/-!
# The programs of the host

The host has a shell and a few small programs, which stand in its directories of
programs. Beside them, a file of the tree can be run when it is executable and
its first line names an interpreter.
-/

namespace UnusedDeps.Host

variable [Whereabouts]

/-! ### The directory -/

/-- Whether a text has no part that is a point or two. -/
def isDirectName (s : String) : Bool :=
  (Text.splitOnChar '/' s).all fun p => p ≠ "." && p ≠ ".."

/-- The `pwd` program, which may believe what the variable `PWD` says if that is true. -/
def runDirectory (l : Launch) : Finished :=
  let options := [{ name := "logical", letter := some 'L' },
    { name := "physical", letter := some 'P' }]
  withOptions options true 1 l fun options names =>
    let isLogical : Bool := match options.getLast? with
      | some o => o.name = "logical"
      | none => isStrict l
    let told := (Mapping.get? l.env "PWD").getD ""
    let isBelieved : Bool := isLogical && told.toList.head? = some '/' && isDirectName told
      && (Viewer.ofLaunch l).areSame told "."
    let name := if isBelieved then told else Text.bytewise l.directory.resolve.text
    let l := if names.isEmpty then l else complain l "ignoring non-option arguments"
    print l (Text.toBytes (name ++ "\n")) 0

/-! ### Waiting -/

/-- The units of a time, in seconds. -/
def timeUnits : List (List Char × Nat) := [([], 1), (['s'], 1), (['m'], 60), (['h'], 3600),
  (['d'], 86400)]

/-- The nanoseconds of a time, which has a unit behind it. -/
def nanosecondsOf? (s : String) : Option Nat :=
  match Shell.pointNumeral? s.toList with
  | none => none
  | some n =>
    match timeUnits.lookup n.rest, (n.quantity.rounded? .double).map Rounded.size with
    | some seconds, some (.finite m e) =>
      if n.negative && m ≠ 0 then none
      else if 0 ≤ e then some (m * twoPow e.toNat * seconds * tenPow 9)
      else some (m * seconds * tenPow 9 / twoPow (-e).toNat)
    | some _, some .infinite => if n.negative then none else some Machine.forever
    | _, _ => none

/-- The `sleep` program. -/
def runSleep (l : Launch) : Finished :=
  if l.args.isEmpty then refuse l ("missing operand" ++ hint l) 1
  else
    withOptions [] true 1 l fun _ times =>
      match (times.filter fun a => (nanosecondsOf? a).isNone).reverse with
      | last :: before =>
        let text (a : String) : String := "invalid time interval " ++ quoted a
        let l := before.reverse.foldl (fun l a => complain l (text a)) l
        refuse l (text last ++ hint l) 1
      | [] =>
        let time := (times.filterMap nanosecondsOf?).foldl (· + ·) 0
        finish { l with machine := l.machine.pass time } 0

/-! ### Starting -/

def programNames : List String :=
  ["sh", "dash", "echo", "printf", "cat", "pwd", "true", "false", "sleep", "env", "printenv", "test",
    "["]

def programDirectories : List String := ["/usr/bin", "/bin"]

/-- The tree with the programs of the host, its directory for temporary files and the file that
swallows everything, below the entries it has. -/
def withPrograms (t : FileTree) : FileTree :=
  let programs := programDirectories.flatMap fun d =>
    programNames.map fun n => (⟨true, ((Path.ofText d).child n).parts⟩, FileNode.program n)
  let device (parts : List String) (d : Device) : Place × FileNode := (⟨true, "dev" :: parts⟩, .device d)
  let devices := [device ["null"] .null, device ["zero"] .zero, device ["full"] .full,
    device ["stdin"] (.descriptor 0), device ["stdout"] (.descriptor 1),
    device ["stderr"] (.descriptor 2)]
  let descriptors := (List.range 10).map fun n => device ["fd", toString n] (.descriptor n)
  ⟨t.entries ++ programs ++ devices ++ descriptors ++ [(⟨true, ["tmp"]⟩, FileNode.directory)]⟩

def runNamed (start : Launcher) (program : String) (l : Launch) : Finished :=
  match program with
  | "echo" => runEcho l
  | "printf" => runPrintf l
  | "cat" => runCat l
  | "pwd" => runDirectory l
  | "true" => finish l 0
  | "false" => finish l 1
  | "sleep" => runSleep l
  | "env" => runEnv start l
  | "printenv" => runPrintenv l
  | "test" => runTest l
  | "[" => runBracket l
  | _ => Shell.run start l

/-- How many bytes an argument or a variable may have, with its end. -/
def maxTextBytes : Nat := 131072

/-- How many bytes the arguments and variables of a program may have, with their ends and their
places in memory. -/
def maxTextsBytes : Nat := 2097152

/-- Whether a program can start with the arguments and variables of a process. -/
def hasRoom (l : Launch) : Bool :=
  let settings := l.env.map fun v => v.1.length + v.2.length + 2
  let sizes := (l.name :: l.args).map (·.length + 1) ++ settings
  sizes.all (· ≤ maxTextBytes) && sizes.foldl (fun n size => n + size + 8) 0 ≤ maxTextsBytes

/-- Starts the program in a file: the file itself, or the interpreter that it names, which may name
one again; there may be as many of these as the bound says. How programs of the host run is a
parameter. -/
def startFile (run : String → Launch → Finished) : Nat → Launcher
  | bound, file, l => do
    if !hasRoom l then throw .argumentsTooLong
    match bound, ← (Viewer.ofLaunch l).nodeAt file with
    | _, .directory => throw .notPermitted
    | _, .device _ => throw .notPermitted
    | _, .file _ false => throw .notPermitted
    | 0, _ => throw .tooManyLinks
    | _, .program name => return run name l
    | bound + 1, .file bytes true =>
      match interpreter? (bytes.extract 0 Interpreter.firstBytes).data.toList with
      | none => throw .badFormat
      | some i =>
        if i.name.isEmpty then throw .notPermitted
        startFile run bound i.name
          { l with name := i.name, args := i.argument.toList ++ file :: l.args }

/-- How many interpreters may name each other. -/
def maxInterpreters : Nat := 6

/-- Starts a program, with a bound on the number of programs that start each other. -/
def startWithin : Nat → Launcher
  | 0 => fun _ _ => .error .missing
  | bound + 1 => startFile (runNamed (startWithin bound)) maxInterpreters

/-- How many programs may start each other. -/
def maxNesting : Nat := 100000

def start : Launcher := startWithin maxNesting

end UnusedDeps.Host
