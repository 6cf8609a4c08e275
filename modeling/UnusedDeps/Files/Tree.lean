import UnusedDeps.Logged
import UnusedDeps.Text.Bytes

/-!
# File trees

A tree holds the files and directories that a run can see, each at a place below
the root or below the working directory. Names with the same bytes are names of one
file, so a place holds the text that `Text.hostName` gives for a name. Looking a path
up walks its parts one by one and stops at the first that is not there, is no
directory, or is too long.
-/

namespace UnusedDeps

/-- A file without bytes of its own. -/
inductive Device where
  /-- What is empty and swallows everything. -/
  | null
  /-- What is read without end. -/
  | zero
  /-- What has no room for anything. -/
  | full
  /-- What a descriptor of the process stands for. -/
  | descriptor (n : Nat)
  deriving DecidableEq, Repr

/-- What stands at a place of a tree. -/
inductive FileNode where
  | directory
  | file (bytes : ByteArray) (executable : Bool)
  /-- A program of the host. -/
  | program (name : String)
  | device (d : Device)

/-- A place below the root or below the working directory. -/
structure Place where
  rooted : Bool
  parts : List String
  deriving DecidableEq, Repr

namespace Place

/-- Where the walk along a path starts. -/
def start (p : Path) : Place := ⟨p.anchor ≠ .relative, []⟩

/-- The place one part further down. -/
def child (p : Place) (name : String) : Place :=
  { p with parts := p.parts ++ [Text.hostName name] }

/-- The place one part further up: the root is above itself, and above the working directory are
places that start with `..`. -/
def above (p : Place) : Place :=
  if p.parts.all (· = "..") then if p.rooted then p else p.child ".."
  else { p with parts := p.parts.dropLast }

end Place

/-- The files and directories that a run can see; the directories above an entry exist too. -/
structure FileTree where
  entries : List (Place × FileNode)

namespace FileTree

def empty : FileTree := ⟨[]⟩

/-- The tree with one more entry, which hides an earlier one at the same place. -/
def add (t : FileTree) (p : Path) (node : FileNode) : FileTree :=
  ⟨({ Place.start p with parts := p.parts.map Text.hostName }, node) :: t.entries⟩

/-! ### Looking up -/

def node? (t : FileTree) (place : Place) : Option FileNode :=
  if place.parts.all (· = "..") then some .directory
  else
    match t.entries.lookup place with
    | some n => some n
    | none =>
      if t.entries.any fun e => e.1.rooted = place.rooted && place.parts.isPrefixOf e.1.parts then
        some .directory
      else none

/-- The number of bytes of a name; one that has no bytes counts none. -/
def byteCount (name : String) : Nat := ((Text.hostBytes? name).getD []).length

/-- The greatest number of bytes in one part of a path. -/
def maxPartBytes : Nat := 255

/-- The greatest number of bytes in a path. -/
def maxPathBytes : Nat := 4095

/-- The place that the parts of a path lead to from a place. -/
def walk (t : FileTree) : Place → List String → Except FileFault Place
  | place, [] => .ok place
  | place, p :: rest =>
    match t.node? place with
    | none => .error .missing
    | some .directory =>
      if p = ".." then t.walk place.above rest
      else if maxPartBytes < byteCount p then .error .nameTooLong
      else if (t.node? (place.child p)).isNone then .error .missing
      else t.walk (place.child p) rest
    | some _ => .error .notDirectory

def locate (t : FileTree) (p : Path) : Except FileFault Place :=
  if maxPathBytes < byteCount p.text then .error .nameTooLong
  else t.walk (.start p) p.parts

def lookup (t : FileTree) (p : Path) : Except FileFault FileNode := do
  match t.node? (← t.locate p) with
  | some n => .ok n
  | none => .error .missing

/-- The names of what stands directly below a path. -/
def children (t : FileTree) (p : Path) : List String :=
  match t.locate p with
  | .ok place =>
    (t.entries.filterMap fun e =>
      if e.1.rooted = place.rooted && place.parts.isPrefixOf e.1.parts then
        (e.1.parts.drop place.parts.length).head?
      else none).eraseDups
  | .error _ => []

/-- Whether a path leads to a file; a name that is too long is a fault of its own, and a path that
no file can have leads to none. -/
def isFile (t : FileTree) (p : Path) : Except FileFault Bool :=
  if p.fault?.isSome then .ok false
  else
    match t.lookup p with
    | .ok .directory => .ok false
    | .ok (.device _) => .ok false
    | .ok _ => .ok true
    | .error .nameTooLong => .error .nameTooLong
    | .error _ => .ok false

/-! ### Reading and writing -/

/-- Why a text could not be read from a file. -/
inductive ReadFault where
  | file (fault : FileFault)
  | notUtf8
  | badName (fault : Path.NameFault)

/-- The text that bytes of a file stand for, with every line ended by a line feed. -/
def textOf? (bytes : ByteArray) : Option String :=
  (Text.ofUtf8? bytes.data.toList).map fun s => String.ofList (Text.foldNewlines s.toList)

/-- The bytes of a file that holds a text. -/
def bytesOf (s : String) : ByteArray := (Text.utf8 s).toByteArray

/-- The text of a file, with every line ended by a line feed. -/
def readText (t : FileTree) (p : Path) : Except ReadFault String :=
  match p.fault?, t.lookup p with
  | some f, _ => .error (.badName f)
  | none, .error f => .error (.file f)
  | none, .ok .directory => .error (.file .isDirectory)
  | none, .ok (.program _) => .error .notUtf8
  | none, .ok (.device _) => .ok ""
  | none, .ok (.file bytes _) =>
    match textOf? bytes with
    | none => .error .notUtf8
    | some s => .ok s

/-- The text of a file; a file that cannot be opened is the given problem, and bytes that are no
text are a fault of their own. -/
def readOr (t : FileTree) (p : Path) (problem : Complaint → Problem) : Except Fault String :=
  match t.readText p with
  | .ok s => .ok s
  | .error (.file f) => .error (.problem (problem (.file f p)))
  | .error .notUtf8 => .error .notUtf8
  | .error (.badName f) => .error (.ofName f)

/-- The text of a file; a file that cannot be opened is a fault. -/
def read (t : FileTree) (p : Path) : Except Fault String :=
  match t.readText p with
  | .ok s => .ok s
  | .error (.file f) => .error (.file f p)
  | .error .notUtf8 => .error .notUtf8
  | .error (.badName f) => .error (.ofName f)

def put (t : FileTree) (place : Place) (node : FileNode) : FileTree :=
  ⟨(place, node) :: t.entries.filter fun e => e.1 ≠ place⟩

/-- The tree after bytes are written to a file, which is made when its directory exists. -/
def write (t : FileTree) (p : Path) (bytes : ByteArray) : Except FileFault FileTree := do
  match p.parts.getLast? with
  | none => .error .isDirectory
  | some name =>
    let place ← t.locate p.parent
    match t.node? place with
    | some .directory =>
      if maxPartBytes < byteCount name then .error .nameTooLong
      else
        match t.node? (place.child name) with
        | some .directory => .error .isDirectory
        | some (.device _) => .ok t
        | some (.file _ executable) => .ok (t.put (place.child name) (.file bytes executable))
        | _ => .ok (t.put (place.child name) (.file bytes false))
    | _ => .error .notDirectory

end FileTree

end UnusedDeps
