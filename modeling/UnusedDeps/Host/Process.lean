import UnusedDeps.Files.Tree
import UnusedDeps.Host.Limit
import UnusedDeps.Number.Power
import UnusedDeps.Text.Bytes
import UnusedDeps.Toolchain.Config

/-!
# Processes

A process starts with its arguments, its variables, a working directory and open
streams under the numbers of its descriptors. It ends with an exit code or by a
signal. Processes share files, streams and the time: what one of them writes into
a stream another one can read. All texts of a process are texts of bytes.
-/

namespace UnusedDeps

variable [Whereabouts]

/-- How a process ends. -/
inductive Ending where
  | exited (code : Nat)
  | killed (signal : Nat)
  deriving DecidableEq, Repr

namespace Ending

/-- The return code: that of the process, or the signal that ended it as a negative number. -/
def code : Ending → Int
  | .exited n => n
  | .killed s => -(s : Int)

/-- The status that a shell sees. -/
def status : Ending → Nat
  | .exited n => n
  | .killed s => 128 + s

end Ending

/-! ### Streams -/

/-- Bytes that a process wrote at a time, with their number. -/
structure Chunk where
  time : Nat
  process : Nat
  bytes : List UInt8
  size : Nat := bytes.length

/-- When the last process that reads a pipe ends, and how many bytes can be written until then. -/
structure Closing where
  time : Nat
  room : Nat

/-- What connects those who write with those who read. -/
structure Pipe where
  /-- What can be read, in the order of time. -/
  ready : List Chunk := []
  /-- What has been written behind that, the last chunk first. -/
  written : List Chunk := []
  /-- How many bytes can be read. -/
  size : Nat := 0
  lastTime : Nat := 0
  /-- The time up to which a process could write that has ended. -/
  held : Nat := 0
  /-- What is known about the end of the pipe; nothing when everything can be written. -/
  closing : Option Closing := none
  /-- How many bytes are written at most before all processes are stopped. -/
  limit : Option Nat := none

namespace Pipe

/-- What can be read, in the order of time. -/
def chunks (p : Pipe) : List Chunk :=
  if p.written.isEmpty then p.ready
  else (p.ready ++ p.written.reverse).mergeSort fun c d => c.time ≤ d.time

def bytes (p : Pipe) : List UInt8 := p.chunks.flatMap Chunk.bytes

/-- The pipe with one more chunk at its end. -/
def add (p : Pipe) (c : Chunk) : Pipe :=
  { p with written := c :: p.written, size := p.size + c.size, lastTime := max p.lastTime c.time }

def withChunks (p : Pipe) (ready : List Chunk) : Pipe :=
  { p with
    ready
    written := []
    size := ready.foldl (fun n c => n + c.size) 0
    lastTime := ready.foldl (fun t c => max t c.time) 0 }

/-- Whether more has been written than is to be. -/
def isOverLimit (p : Pipe) : Bool := p.limit.any (· < p.size)

end Pipe

/-- What may be done with an open file. -/
structure Access where
  reads : Bool
  writes : Bool
  /-- Whether everything is written at the end. -/
  appends : Bool := false
  deriving DecidableEq, Repr

/-- What a descriptor can stand for. -/
inductive Stream where
  /-- The end of a pipe that is written. -/
  | pipe (p : Pipe)
  /-- The end of a pipe that is read; the other end has a number. -/
  | source (n : Nat)
  /-- A file and the place in it where it is read and written. -/
  | file (p : Path) (offset : Nat) (access : Access)
  /-- A directory, which can be opened but not read. -/
  | directory
  /-- What is empty and swallows everything. -/
  | null
  /-- What is read without end. -/
  | zero
  /-- What has no room for anything. -/
  | full

/-- Why bytes cannot be written. -/
inductive WriteFault where
  /-- The descriptor is not open for writing. -/
  | closed
  | noSpace
  /-- The file would get larger than the process may make it. -/
  | tooLarge
  /-- Nothing reads the pipe. -/
  | unread
  deriving DecidableEq, Repr

/-- The signal that a process gets when it cannot write bytes. -/
def WriteFault.signal? : WriteFault → Option Nat
  | .tooLarge => some 25
  | .unread => some 13
  | _ => none

/-- A signal that was sent to a process at a time. -/
structure SentSignal where
  time : Nat
  process : Nat
  signal : Nat

/-- A process in the background, which has run. -/
structure Background where
  process : Nat
  /-- The last process that was started by then. -/
  last : Nat
  ends : Nat
  /-- The streams that it had open at its end. -/
  streams : List Nat

/-- What processes share. -/
structure Machine where
  files : FileTree
  /-- The times at which files were written, the last one first. -/
  changes : List (Place × Nat)
  /-- The streams, each under its number. -/
  streams : List Stream
  /-- The time in nanoseconds. -/
  clock : Nat
  /-- The time at which all processes are stopped. -/
  deadline : Option Nat
  /-- Whether all processes are stopped already. -/
  isHalted : Bool
  /-- The number of the process that was started last. -/
  lastProcess : Nat
  /-- The processes that are shells and have not ended. -/
  shells : List Nat
  background : List Background
  /-- The processes, the last one first, each with the time at which it was started. -/
  births : List (Nat × Nat)
  /-- The signals that have been sent and not taken. -/
  signals : List SentSignal

namespace Machine

/-- The machine with an input that is empty, an output and an output for errors, under the numbers
zero, one and two, and a process. -/
def initial (files : FileTree) (process : Nat) (deadline : Option Nat) : Machine where
  files := files
  changes := []
  streams := [.null, .pipe {}, .pipe {}]
  clock := 0
  deadline := deadline
  isHalted := false
  lastProcess := process
  shells := []
  background := []
  births := []
  signals := []

def pass (m : Machine) (time : Nat) : Machine := { m with clock := m.clock + time }

/-- Whether all processes are to stop. -/
def isLate (m : Machine) : Bool := m.isHalted || m.deadline.any fun d => d < m.clock

/-- Whether a process runs that can be sent signals. -/
def isRunning (m : Machine) (process : Nat) : Bool :=
  m.shells.contains process || m.background.any fun b => b.process = process && m.clock < b.ends

/-- The machine with one more stream, and the number of that. -/
def openStream (m : Machine) (s : Stream) : Machine × Nat :=
  ({ m with streams := m.streams ++ [s] }, m.streams.length)

/-- The machine with one more process, which is started, and the number of that. -/
def startProcess (m : Machine) : Machine × Nat :=
  let n := m.lastProcess + 1
  ({ m with lastProcess := n, births := (n, m.clock) :: m.births }, n)

/-- The machine with another stream under a number. -/
def setStream (m : Machine) (n : Nat) (s : Stream) : Machine :=
  { m with streams := m.streams.set n s }

/-- The machine without the streams from a number on, which no process has open any more. -/
def dropStreams (m : Machine) (n : Nat) : Machine :=
  { m with
    streams := m.streams.take n
    background := m.background.map fun b => { b with streams := b.streams.filter (· < n) } }

/-- What stands at a path that was written as a text, for a process with descriptors; a slash at its
end asks for a directory. -/
def nodeAt (m : Machine) (descriptors : Mapping Nat Nat) (p : Path) (text : String) :
    Except FileFault FileNode := do
  if text.isEmpty then throw .missing
  match ← m.files.lookup p with
  | .directory => return .directory
  | .device (.descriptor n) =>
    if (Mapping.get? descriptors n).isNone then throw .missing
    else if text.toList.getLast? = some '/' then throw .notDirectory
    else return .device (.descriptor n)
  | node => if text.toList.getLast? = some '/' then throw .notDirectory else return node

def fileBytes (m : Machine) (p : Path) : ByteArray :=
  match m.files.lookup p with
  | .ok (.file bytes _) => bytes
  | _ => .empty

/-- The machine after bytes became those of a file, which is made when there is none. -/
def store (m : Machine) (p : Path) (bytes : ByteArray) : Except FileFault Machine := do
  let files ← m.files.write p bytes
  let changes := match files.locate p with
    | .ok place => (place, m.clock) :: m.changes.filter fun c => c.1 ≠ place
    | .error _ => m.changes
  return { m with files, changes }

/-- The time at which a file was written, if it has been. -/
def changed? (m : Machine) (p : Path) : Option Nat :=
  match m.files.locate p with
  | .ok place => m.changes.lookup place
  | .error _ => none

/-- Bytes with others in place of those from an offset on. -/
def patched (old : ByteArray) (offset : Nat) (new : List UInt8) : ByteArray :=
  let gap := List.replicate (offset - old.size) 0
  let new := (gap ++ new).toByteArray
  old.extract 0 offset ++ new ++ old.extract (offset + new.size) old.size

/-- The machine after a process wrote bytes into a stream, and why not all of them could be written,
if so. A file may be given a greatest number of bytes. -/
def write (m : Machine) (process n : Nat) (limit : Option Nat) (bytes : List UInt8) :
    Machine × Option WriteFault :=
  match m.streams[n]? with
  | some (.pipe p) =>
    let isClosed (c : Closing) : Bool := c.time < m.clock || c.room < p.size + bytes.length
    match if bytes.isEmpty then none else p.closing.filter isClosed with
    | some c => ({ m with clock := max m.clock c.time }, some .unread)
    | none =>
      if bytes.isEmpty then (m, none)
      else
        let p := p.add { time := m.clock, process, bytes }
        let m := m.setStream n (.pipe p)
        (if p.isOverLimit then { m with isHalted := true } else m, none)
  | some (.file p offset access) =>
    if !access.writes then (m, some .closed)
    else
      let old := m.fileBytes p
      let offset := if access.appends then old.size else offset
      let kept := match limit with
        | some greatest => bytes.take (greatest - offset)
        | none => bytes
      let fault := if kept.length < bytes.length then some WriteFault.tooLarge else none
      match if kept.isEmpty then .ok m else m.store p (patched old offset kept) with
      | .ok m => (m.setStream n (.file p (offset + kept.length) access), fault)
      | .error _ => (m, none)
  | some .null => (m, none)
  | some .zero => (m, none)
  | some .full => (m, if bytes.isEmpty then none else some .noSpace)
  | _ => (m, some .closed)

/-! ### Pipes -/

/-- The machine with one more pipe, in front of which some bytes may be written. The number is that of
the end that is written; the end that is read has the next number. -/
def openPipe (m : Machine) (p : Pipe) (bytes : List UInt8) : Machine × Nat :=
  let p := if bytes.isEmpty then p else p.add { time := m.clock, process := 0, bytes }
  let (m, n) := m.openStream (.pipe p)
  ((m.openStream (.source n)).1, n)

/-- The pipe whose end that is written has a number. -/
def pipe? (m : Machine) (n : Nat) : Option Pipe :=
  match m.streams[n]? with
  | some (.pipe p) => some p
  | _ => none

/-- The pipe whose end that is read has a number, and the number of the other end. -/
def source? (m : Machine) (n : Nat) : Option (Nat × Pipe) :=
  match m.streams[n]? with
  | some (.source k) => (m.pipe? k).map fun p => (k, p)
  | _ => none

/-- The machine after a process ended that had streams open. -/
def release (m : Machine) (streams : List Nat) : Machine :=
  streams.foldl (fun m n =>
    match m.pipe? n with
    | some p => m.setStream n (.pipe { p with held := max p.held m.clock })
    | none => m) m

/-- The time at which all processes have ended that write into a pipe. -/
def lastWriting (m : Machine) (n : Nat) : Nat :=
  (m.background.filter fun b => b.streams.contains n).foldl (fun t b => max t b.ends)
    (((m.pipe? n).map Pipe.held).getD 0)

/-- The time at which the process has ended that was started first, and all that write what it
writes. -/
def ended (m : Machine) : Nat := max m.clock (max (m.lastWriting 1) (m.lastWriting 2))

/-- All that was written into a pipe and has not been read. -/
def written (m : Machine) (n : Nat) : List UInt8 := ((m.pipe? n).map Pipe.bytes).getD []

/-- The bytes at the front of chunks, as many as there are up to a number. -/
def frontBytes : List Chunk → Nat → List UInt8
  | [], _ => []
  | c :: cs, count =>
    if c.size < count then c.bytes ++ frontBytes cs (count - c.size) else c.bytes.take count

/-- The bytes that can be read next from a stream, as many as there are up to a number; `none` when it
cannot be read. -/
def front? (m : Machine) (n count : Nat) : Option (List UInt8) :=
  match m.streams[n]? with
  | some (.source k) => some (((m.pipe? k).map fun p => frontBytes p.chunks count).getD [])
  | some (.file p offset access) =>
    if access.reads then some ((m.fileBytes p).extract offset (offset + count)).data.toList else none
  | some .null => some []
  | some .zero => some []
  | some .full => some []
  | _ => none

/-- The bytes that can be read from a stream; `none` when it cannot be read. -/
def unread? (m : Machine) (n : Nat) : Option (List UInt8) :=
  match m.streams[n]? with
  | some (.source k) => some (m.written k)
  | some (.file p _ _) => m.front? n (m.fileBytes p).size
  | _ => m.front? n 0

/-- A time that no process waits for. -/
def forever : Nat := tenPow 30

/-- How long it takes until a process goes on that has waited for another one to write. -/
def wakingTime : Nat := 50000

/-- The machine after a process waited for what happens at a time. -/
def await (m : Machine) (time : Nat) : Machine :=
  if m.clock < time then { m with clock := time + wakingTime } else m

/-- What is left of chunks when bytes are taken from their front, and the time of the last byte
taken. -/
def takeBytes : List Chunk → Nat → Nat → List Chunk × Nat
  | cs, 0, time => (cs, time)
  | [], _, time => ([], time)
  | c :: cs, count + 1, _ =>
    if c.size ≤ count + 1 then takeBytes cs (count + 1 - c.size) c.time
    else
      let size := c.size - (count + 1)
      ({ c with bytes := c.bytes.drop (count + 1), size } :: cs, c.time)

/-- The machine after some bytes of a stream were read, for which a process waits until they have
been written; when it reads up to the end, it waits until nothing more can be written. -/
def advance (m : Machine) (n count : Nat) (toEnd : Bool) : Machine :=
  match m.streams[n]? with
  | some (.source k) =>
    match m.pipe? k with
    | some p =>
      let (ready, time) := takeBytes p.chunks count m.clock
      let m := m.setStream k (.pipe { p with ready, written := [], size := p.size - count })
      m.await (if toEnd then max time (m.lastWriting k) else time)
    | none => m
  | some (.file p offset access) => m.setStream n (.file p (offset + count) access)
  | some .zero => m.pass forever
  | some .full => m.pass forever
  | _ => m

/-- The machine on which a process in the background has ended at a time, without what it wrote
afterwards and without the processes that it started afterwards. -/
def stop (m : Machine) (process time : Nat) : Machine :=
  let lasts := (m.background.filter fun b => b.process = process).map Background.last
  let isUnborn (b : Nat × Nat) : Bool := process < b.1 && lasts.any (b.1 ≤ ·) && time ≤ b.2
  let unborn := (m.births.filter isUnborn).map (·.1)
  let isKept (c : Chunk) : Bool :=
    !unborn.contains c.process && (c.process ≠ process || c.time ≤ time)
  { m with
    background := m.background.map fun b => if b.process = process then { b with ends := time } else b
    streams := m.streams.map fun
      | .pipe p => .pipe (p.withChunks (p.chunks.filter isKept))
      | s => s }

end Machine

/-! ### Starting and ending -/

/-- What a process starts with. -/
structure Launch where
  /-- The name under which the process is started. -/
  name : String
  args : List String
  env : Environment
  directory : Path
  descriptors : Mapping Nat Nat
  /-- The number of the process, and of the one that started it. -/
  process : Nat
  parent : Nat
  /-- The signals that do nothing to the process. -/
  ignored : List Nat
  limits : Limits
  machine : Machine

namespace Launch

/-- The path that a name means to a process. -/
def path (l : Launch) (name : String) : Path := (l.directory.child (Text.hostText name)).nearby

/-- The launch after bytes are written to a descriptor, and why they could not be, if so. -/
def write (l : Launch) (descriptor : Nat) (bytes : List UInt8) : Launch × Option WriteFault :=
  match Mapping.get? l.descriptors descriptor with
  | some n =>
    let (m, fault) := l.machine.write l.process n l.limits.fileBytes? bytes
    ({ l with machine := m }, fault)
  | none => (l, some .closed)

/-- The bytes that a process reads from a descriptor up to the end, which it waits for. -/
def readAll (l : Launch) (descriptor : Nat) : Option (List UInt8) × Launch :=
  match Mapping.get? l.descriptors descriptor with
  | none => (none, l)
  | some n =>
    match l.machine.unread? n with
    | none => (none, l)
    | some bytes => (some bytes, { l with machine := l.machine.advance n bytes.length true })

end Launch

/-- What a process leaves behind. -/
structure Finished where
  ending : Ending
  machine : Machine

/-- A way to start the program in a file, whose name is a text of bytes. -/
abbrev Launcher := String → Launch → Except FileFault Finished

/-- The directories that are searched when the variable `PATH` is not set. -/
def defaultSearch : String := "/bin:/usr/bin"

/-- The file that a bare name means in a directory. -/
def fileIn (name directory : String) : String :=
  if directory.isEmpty then name else directory ++ "/" ++ name

/-- The files that a bare name may stand for, in the order in which they are tried. -/
def searchFiles (search name : String) : List String :=
  (Text.splitOnChar ':' search).map (fileIn name)

end UnusedDeps
