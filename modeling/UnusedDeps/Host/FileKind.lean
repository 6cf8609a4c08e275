import UnusedDeps.Host.Process

/-!
# Looking at files

A process can ask what a path leads to and what may be done with it. A descriptor of
the process has a path, too, which leads to whatever the descriptor stands for. Some
places hold links, which lead on to another place.
-/

namespace UnusedDeps.Host

variable [Whereabouts]

/-- What a path leads to. -/
inductive FileKind where
  | directory
  | regular (isEmpty executable : Bool)
  /-- A device that gives or takes characters. -/
  | character
  | pipe
  deriving DecidableEq, Repr

namespace FileKind

/-- The kind of what stands at a place, apart from descriptors. -/
def ofNode : FileNode → FileKind
  | .directory => .directory
  | .file bytes executable => .regular (bytes.size = 0) executable
  | .program _ => .regular false true
  | .device _ => .character

def ofStream (m : Machine) : Stream → FileKind
  | .pipe _ => .pipe
  | .source _ => .pipe
  | .file p _ _ => ((m.files.lookup p).toOption.map ofNode).getD (.regular true false)
  | .directory => .directory
  | .null => .character
  | .zero => .character
  | .full => .character

/-- Whether a program of the machine may be in the file. -/
def isExecutable : FileKind → Bool
  | .directory => true
  | .regular _ executable => executable
  | _ => false

/-- Whether there is something in the file; a directory always holds something. -/
def hasContents : FileKind → Bool
  | .directory => true
  | .regular isEmpty _ => !isEmpty
  | _ => false

end FileKind

/-- A process as one that looks at files. -/
structure Viewer where
  machine : Machine
  descriptors : Mapping Nat Nat
  directory : Path

namespace Viewer

/-- The viewer that a starting process is. -/
def ofLaunch (l : Launch) : Viewer := ⟨l.machine, l.descriptors, l.directory⟩

def path (v : Viewer) (text : String) : Path := (v.directory.child (Text.hostText text)).nearby

/-- What stands at the path that a text means. -/
def nodeAt (v : Viewer) (text : String) : Except FileFault FileNode :=
  v.machine.nodeAt v.descriptors (v.path text) text

/-- What stands at the path that a text means, if anything does. -/
def node? (v : Viewer) (text : String) : Option FileNode := (v.nodeAt text).toOption

/-- The kind of what a text means as a path. -/
def kind? (v : Viewer) (text : String) : Option FileKind :=
  match v.node? text with
  | some (.device (.descriptor n)) =>
    ((Mapping.get? v.descriptors n).bind fun s => v.machine.streams[s]?).map
      (FileKind.ofStream v.machine)
  | some node => some (.ofNode node)
  | none => none

/-- The directories and files of the host that are links, each with the place it leads to. -/
def links : List (List String × List String) :=
  [(["bin"], ["usr", "bin"]), (["usr", "bin", "sh"], ["usr", "bin", "dash"])]

/-- The place below the root that one leads to when links are followed. -/
def followed (parts : List String) : List String :=
  links.foldl (fun ps l => if l.1.isPrefixOf ps then l.2 ++ ps.drop l.1.length else ps) parts

/-- The names below the directory of devices that are links to descriptors. -/
def descriptorLinks : List String := ["stdin", "stdout", "stderr", "fd"]

/-- Whether there is a link at a place below the root, apart from those of descriptors by number. -/
def isLinkPlace (parts : List String) : Bool :=
  match parts with
  | ["dev", name] => descriptorLinks.contains name
  | ps => links.any fun l => l.1 = followed ps.dropLast ++ ps.getLast?.toList

/-- The place of what a text means as a path. -/
def place? (v : Viewer) (text : String) : Option Place :=
  match v.node? text, v.machine.files.locate (v.path text) with
  | some (.device (.descriptor n)), .ok place =>
    match (Mapping.get? v.descriptors n).bind fun s => v.machine.streams[s]? with
    | some (.file p _ _) => (v.machine.files.locate p).toOption
    | some .null => some ⟨true, ["dev", "null"]⟩
    | _ => some place
  | some _, .ok place =>
    some (if place.rooted then { place with parts := followed place.parts } else place)
  | _, _ => none

/-- Whether two texts mean one file. -/
def areSame (v : Viewer) (a b : String) : Bool :=
  (v.place? a).isSome && v.place? a = v.place? b

def isLink (v : Viewer) (text : String) : Bool :=
  let isDescriptor : Bool := match v.node? text with
    | some (.device (.descriptor _)) => true
    | _ => false
  match v.machine.files.locate (v.path text) with
  | .ok ⟨true, parts⟩ =>
    text.toList.getLast? ≠ some '/' && (isDescriptor || isLinkPlace parts)
  | _ => false

/-- How exactly the time is kept at which a file was written. -/
def fileTick : Nat := 4000000

/-- How late a file was written: one of the host before those of the run, and these before what the
run has written. -/
def lateness? (v : Viewer) (text : String) : Option Nat :=
  match v.place? text with
  | some place =>
    match v.machine.changes.lookup place with
    | some time => some (time / fileTick + 2)
    | none => some (if place.rooted then 0 else 1)
  | none => none

/-- Whether both of two texts mean files, and the first one was written later. -/
def isLater (v : Viewer) (a b : String) : Bool :=
  match v.lateness? a, v.lateness? b with
  | some s, some t => t < s
  | _, _ => false

/-- Whether the first of two texts means a file, and the second one none or one that was written
earlier. -/
def isLaterOrAlone (v : Viewer) (a b : String) : Bool :=
  (v.lateness? a).isSome && (v.isLater a b || (v.lateness? b).isNone)

/-- Whether a letter is true of what a text means, for the letters that ask about a file. -/
def holds (v : Viewer) (letter : Char) (text : String) : Bool :=
  let kind := v.kind? text
  match letter with
  | 'd' => kind = some .directory
  | 'f' =>
    match kind with
    | some (.regular _ _) => true
    | _ => false
  | 'c' => kind = some .character
  | 'p' => kind = some .pipe
  | 'x' => kind.any FileKind.isExecutable
  | 's' => kind.any FileKind.hasContents
  | 'h' => v.isLink text
  | 'L' => v.isLink text
  | 'k' => (v.place? text) = some ⟨true, ["tmp"]⟩
  | c => kind.isSome && ['e', 'r', 'w', 'O', 'G'].contains c

end Viewer

end UnusedDeps.Host
