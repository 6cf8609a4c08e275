import UnusedDeps.Shell.Expansion

/-!
# Redirections

A redirection gives a descriptor another stream: a file that is opened, a copy of
what another descriptor has, or a text of the script. All words of a command's
redirections are expanded before the first of them is carried out, and a command
whose redirections fail does not run.
-/

namespace UnusedDeps.Shell

variable [Whereabouts]

/-- A redirection whose word is expanded, apart from texts of the script, which are expanded when they
are given to a descriptor. -/
inductive ReadyRedirection where
  | file (descriptor : Nat) (direction : Direction) (target : String)
  /-- A copy of another descriptor, or none in its place. -/
  | copy (descriptor : Nat) (source : Option Nat)
  | document (descriptor : Nat) (text : Word)

def ReadyRedirection.descriptor : ReadyRedirection → Nat
  | .file d _ _ => d
  | .copy d _ => d
  | .document d _ => d

namespace Act

def setStream (descriptor n : Nat) : Act Unit :=
  modify fun s => { s with descriptors := Mapping.set descriptor n s.descriptors }

def openFor (descriptor : Nat) (stream : Stream) : Act Unit := do
  let s ← get
  let (m, n) := s.machine.openStream stream
  set { s with machine := m }
  setStream descriptor n

def close (descriptor : Nat) : Act Unit :=
  modify fun s =>
    { s with descriptors := s.descriptors.filter fun d => d.1 ≠ descriptor }

/-- Makes a descriptor a copy of another one. -/
def copyDescriptor (descriptor source : Nat) : Act Unit := do
  match Mapping.get? (← get).descriptors source with
  | some n => setStream descriptor n
  | none => fail (toString source ++ ": Bad file descriptor")

/-- Why a file cannot be opened; a missing one is told as it suits what is done. -/
def openingText (missing : String) : FileFault → String
  | .missing => missing
  | .notDirectory => missing
  | .isDirectory => "Is a directory"
  | .nameTooLong => "File name too long"
  | .notPermitted => "Permission denied"
  | .badFormat => "Exec format error"
  | .argumentsTooLong => "Argument list too long"
  | .tooManyLinks => "Too many levels of symbolic links"

/-- How long it takes to open a file. -/
def openingTime : Nat := 100000

/-- Opens a file for writing, which is made when there is none and may be emptied before; why that
cannot be done is passed on. -/
def openForWriting (descriptor : Nat) (path : Path) (keeps : Bool) (access : Access)
    (refuse : FileFault → Act Unit) : Act Unit := do
  let s ← get
  let isFile : Bool := match s.machine.files.lookup path with
    | .ok (.file _ _) => true
    | .ok (.program _) => true
    | _ => false
  match if keeps && isFile then .ok s.machine else s.machine.store path .empty with
  | .error f => refuse f
  | .ok m =>
    set { s with machine := m }
    openFor descriptor (.file path 0 access)

/-- Opens a file that is there, or a place where one can be, as a direction asks. -/
def openPath (descriptor : Nat) (direction : Direction) (path : Path) (node : Option FileNode)
    (refuse : FileFault → Act Unit) : Act Unit :=
  match direction with
  | .read =>
    match node with
    | some .directory => openFor descriptor .directory
    | _ => openFor descriptor (.file path 0 ⟨true, false, false⟩)
  | .append => openForWriting descriptor path true ⟨false, true, true⟩ refuse
  | .readWrite => openForWriting descriptor path true ⟨true, true, false⟩ refuse
  | _ => openForWriting descriptor path false ⟨false, true, false⟩ refuse

/-- Opens what a descriptor stands for once more: a file from its start, the end of a pipe that suits
the direction, anything else as it is. -/
def openAgain (descriptor : Nat) (direction : Direction) (source : Nat)
    (refuse : FileFault → Act Unit) : Act Unit := do
  let s ← get
  match Mapping.get? s.descriptors source with
  | none => refuse .missing
  | some n =>
    match s.machine.streams[n]? with
    | some (.file path _ _) => openPath descriptor direction path none refuse
    | some (.source k) => setStream descriptor (if direction = .read then n else k)
    | some (.pipe _) =>
      if direction = .read then openFor descriptor (.source n) else setStream descriptor n
    | _ => setStream descriptor n

/-- Opens what a name stands for, as a direction asks. -/
def openNamed (descriptor : Nat) (direction : Direction) (target : String) : Act Unit := do
  spend openingTime
  let s ← get
  let node := s.nodeAt target
  let reads := direction = .read
  let refuse (f : FileFault) : Act Unit :=
    if reads then fail ("cannot open " ++ target ++ ": " ++ openingText "No such file" f)
    else fail ("cannot create " ++ target ++ ": " ++ openingText "Directory nonexistent" f)
  match node with
  | .ok (.device .null) => openFor descriptor .null
  | .ok (.device .zero) => openFor descriptor .zero
  | .ok (.device .full) => openFor descriptor .full
  | .ok (.device (.descriptor n)) => openAgain descriptor direction n refuse
  | .error f =>
    if reads || target.isEmpty then refuse f
    else if target.toList.getLast? = some '/' then refuse .isDirectory
    else openPath descriptor direction (s.path target) none refuse
  | .ok (.file bytes executable) =>
    if direction = .write && s.isOn 'C' then fail ("cannot create " ++ target ++ ": File exists")
    else openPath descriptor direction (s.path target) (some (.file bytes executable)) refuse
  | .ok n => openPath descriptor direction (s.path target) (some n) refuse

def carryOut (output : Command → Act (List UInt8)) : ReadyRedirection → Act Unit
  | .document d w => do
    let text ← documentText output w
    let s ← get
    let (m, n) := s.machine.openPipe {} (Text.toBytes text)
    set { s with machine := m }
    setStream d (n + 1)
  | .copy d none => close d
  | .copy d (some n) => copyDescriptor d n
  | .file d direction target => openNamed d direction target

/-- The redirections with their words expanded. -/
def readyRedirections (output : Command → Act (List UInt8)) (rs : List Redirection) :
    Act (List ReadyRedirection) :=
  rs.mapM fun
    | .file descriptor .copy target => do
      match (← text output target).toList with
      | ['-'] => return .copy descriptor none
      | [c] =>
        match digit? 10 c with
        | some n => return .copy descriptor (some n)
        | none => fail "Syntax error: Bad fd number"
      | _ => fail "Syntax error: Bad fd number"
    | .file descriptor direction target => do
      return .file descriptor direction (← text output target)
    | .document descriptor id => do
      return .document descriptor (((← get).documents.lookup id).getD [])

/-- Carries out redirections, and tells whether all could be. -/
def redirect (output : Command → Act (List UInt8)) (rs : List ReadyRedirection) : Act Bool := do
  match ← attempt (rs.forM (carryOut output)) with
  | none => return true
  | some .failure => return false
  | some l => leave l

/-- Forgets the streams from a number on if the shell has none of them open. -/
def dropStreams (n : Nat) : Act Unit :=
  modify fun s =>
    if s.descriptors.all fun d => d.2 < n then { s with machine := s.machine.dropStreams n } else s

/-- An action after which some descriptors are what they were, unless a program has taken the place
of the shell. -/
def keepingDescriptors (kept : List Nat) (action : Act Unit) : Act Unit := do
  if kept.isEmpty then return ← action
  let before := (← get).descriptors
  let streams := (← get).machine.streams.length
  let restore : Act Unit := do
    modify fun s =>
      { s with descriptors := kept.foldl (fun ds d =>
          match Mapping.get? before d with
          | some n => Mapping.set d n ds
          | none => ds.filter fun e => e.1 ≠ d) s.descriptors }
    dropStreams streams
  match ← attempt action with
  | some (.replaced e) => leave (.replaced e)
  | left =>
    restore
    leaveAgain left

end Act

end UnusedDeps.Shell
