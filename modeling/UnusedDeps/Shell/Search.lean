import UnusedDeps.Shell.Signal

/-!
# Looking for programs

A name without a slash stands for the first program of that name in the directories
of `PATH`. Where a program was found is remembered until the directories change; a
program in a relative directory is looked for anew when the working directory has
changed. A name can stand for something else than a program, too.
-/

namespace UnusedDeps.Shell

variable [Whereabouts]

namespace Session

/-- The directories in which programs are looked for. -/
def searched (s : Session) : List String :=
  Text.splitOnChar ':' ((s.value? "PATH").getD "")

def usualDirectories : List String := Text.splitOnChar ':' defaultPath

end Session

/-- Whether what stands at a path is a program. -/
def isProgram : FileNode → Bool
  | .program _ => true
  | .file _ executable => executable
  | _ => false

/-- How many directories come before the first one that holds a program of a name. The fault tells
why the directories before were no help; where the program was before is known, if so. -/
def placeFrom (s : Session) (name : String) (known : Option Nat) :
    Nat → FileFault → List String → Except FileFault Nat
  | _, fault, [] => .error fault
  | place, fault, d :: rest =>
    let file := fileIn name d
    let isAnchored := file.toList.head? = some '/'
    let next := fun f => placeFrom s name known (place + 1) f rest
    if isAnchored && known.any (place < ·) then next fault
    else if isAnchored && known = some place then .ok place
    else
      match s.nodeAt file with
      | .ok node => if isProgram node then .ok place else next .notPermitted
      | .error .missing => next fault
      | .error .notDirectory => next fault
      | .error f => next f

/-- Why a program does not run. -/
def unstartedText : FileFault → String
  | .nameTooLong => "File name too long"
  | .notPermitted => "Permission denied"
  | .isDirectory => "Is a directory"
  | .badFormat => "Exec format error"
  | .argumentsTooLong => "Argument list too long"
  | .tooManyLinks => "Too many levels of symbolic links"
  | .missing => "not found"
  | .notDirectory => "not found"

/-- The status of a program that cannot be started. -/
def unstartedStatus : FileFault → Nat
  | .missing => 127
  | .notDirectory => 127
  | .nameTooLong => 127
  | .tooManyLinks => 127
  | _ => 126

namespace Act

/-- The files that a program may be started from, the first of which is there, or why there are
none. Where the program is is remembered, unless other directories than those of `PATH` are given. -/
def findProgram (directories : Option (List String)) (name : String) :
    Act (Except FileFault (List String)) := do
  let s ← get
  match directories with
  | some ds => return (placeFrom s name none 0 .missing ds).map fun n => (ds.drop n).map (fileIn name)
  | none =>
    let files := s.searched.map (fileIn name)
    match Mapping.get? s.found name with
    | some ⟨place, false⟩ => return .ok (files.drop place)
    | old =>
      match placeFrom s name (old.map Tracked.place) 0 .missing s.searched with
      | .ok place =>
        set { s with found := Mapping.set name ⟨place, false⟩ s.found }
        return .ok (files.drop place)
      | .error f =>
        set { s with found := s.found.filter fun e => e.1 ≠ name }
        return .error f

/-- Says that a program does not run. -/
def complainOf (name : String) (f : FileFault) : Act Unit := complain (name ++ ": " ++ unstartedText f)

/-! ### The table of programs -/

/-- How many places the table of commands has. -/
def commandPlaces : Nat := 31

/-- Shows where programs have been found. -/
def listFound : Act Unit := do
  let s ← get
  let files := s.searched
  let line (e : String × Tracked) : String :=
    fileIn e.1 ((files[e.2.place]?).getD "") ++ (if e.2.stale then "*" else "") ++ "\n"
  print (Text.toBytes (String.join ((inTable commandPlaces (·.1) s.found).map line))) 0

/-- Whether a name stands for a command of the shell or for a function. -/
def isInner (s : Session) (name : String) : Bool :=
  (Mapping.get? s.functions name).isSome || specialNames.contains name || regularNames.contains name

/-- The command `hash`: looks for programs anew, or forgets where they are. -/
def runHash (args : List String) : Act Unit := do
  let (options, names) ← letters ['r'] args
  setStatus 0
  if options.contains 'r' then modify fun s => { s with found := [] }
  else if names.isEmpty then listFound
  else
    names.forM fun n => do
      modify fun s => { s with found := s.found.filter fun e => e.1 ≠ n }
      if !(n.toList.contains '/' || isInner (← get) n) then
        match ← findProgram none n with
        | .ok _ => pure ()
        | .error f =>
          complainOf n f
          setStatus 1

/-! ### What names stand for -/

/-- What is said of the program that a name stands for, in full or as it could be used; `none` when
there is none. -/
def programDescription? (isFull : Bool) (directories : Option (List String)) (name : String) :
    Act (Option String) := do
  let s ← get
  let say (kind file : String) : Option String :=
    some (if isFull then name ++ " is " ++ kind ++ file else file)
  if name.toList.contains '/' then
    return if (s.nodeAt name).toOption.isSome then say "" name else none
  else
    match directories, Mapping.get? s.found name with
    | none, some tracked =>
      return say "a tracked alias for " (fileIn name ((s.searched[tracked.place]?).getD ""))
    | ds, _ =>
      match ← findProgram ds name with
      | .ok (file :: _) => return say "" file
      | _ => return none

/-- What is said of a name, in full or as it could be used. -/
def description? (isFull : Bool) (directories : Option (List String)) (name : String) :
    Act (Option String) := do
  let s ← get
  let say (full : String) : Act (Option String) :=
    return some (if isFull then name ++ " is " ++ full else name)
  if reservedWords.contains name then say "a shell keyword"
  else
    match Mapping.get? s.aliases name with
    | some value =>
      if isFull then say ("an alias for " ++ value)
      else return some ("alias " ++ name ++ "=" ++ singleQuoted value)
    | none =>
      if (Mapping.get? s.functions name).isSome then say "a shell function"
      else if specialNames.contains name then say "a special shell builtin"
      else if regularNames.contains name then say "a shell builtin"
      else programDescription? isFull directories name

/-- Says what names stand for. -/
def describe (isFull : Bool) (directories : Option (List String)) (names : List String) :
    Act Unit := do
  setStatus 0
  names.forM fun n => do
    match ← description? isFull directories n with
    | some text => print (Text.toBytes (text ++ "\n")) (← get).status
    | none =>
      if isFull then print (Text.toBytes (n ++ ": not found\n")) 0
      setStatus 127

/-- The command `command` with options that ask what a name stands for. -/
def runCommandOptions (args : List String) : Act Unit := do
  let (options, names) ← letters ['p', 'v', 'V'] args
  let directories := if options.contains 'p' then some Session.usualDirectories else none
  if options.contains 'v' || options.contains 'V' then
    describe (options.contains 'V') directories (names.take 1)
  else setStatus 0

end Act

end UnusedDeps.Shell
