import UnusedDeps.Host.FileKind
import UnusedDeps.Host.Program

/-!
# Copying files

`cat` writes files one after the other. It can number lines, leave empty lines out that
follow an empty one, mark the ends of lines, and show bytes that are not visible. A line
may start in one file and end in the next one, so the state between two bytes is kept
from file to file.
-/

namespace UnusedDeps.Host

variable [Whereabouts]

/-- Why a file cannot be read. -/
def faultText : FileFault → String
  | .missing => "No such file or directory"
  | .badFormat => "Exec format error"
  | .notPermitted => "Permission denied"
  | .notDirectory => "Not a directory"
  | .isDirectory => "Is a directory"
  | .nameTooLong => "File name too long"
  | .argumentsTooLong => "Argument list too long"
  | .tooManyLinks => "Too many levels of symbolic links"

/-! ### Showing -/

/-- How files are shown. -/
structure CatStyle where
  numbersAll : Bool
  /-- Whether the lines that are not empty are numbered. -/
  numbersFilled : Bool
  squeezes : Bool
  marksEnds : Bool
  showsTabs : Bool
  showsHidden : Bool

/-- The options of `cat`. -/
def catOptions : List ProgramOption :=
  [{ name := "number-nonblank", letter := some 'b' }, { name := "number", letter := some 'n' },
    { name := "squeeze-blank", letter := some 's' },
    { name := "show-nonprinting", letter := some 'v' },
    { name := "show-ends", letter := some 'E' }, { name := "show-tabs", letter := some 'T' },
    { name := "show-all", letter := some 'A' },
    { name := "e", letter := some 'e', isLong := false },
    { name := "t", letter := some 't', isLong := false },
    { name := "u", letter := some 'u', isLong := false }]

def CatStyle.ofOptions (names : List String) : CatStyle :=
  let any (wanted : List String) : Bool := wanted.any names.contains
  { numbersAll := any ["number"] && !any ["number-nonblank"]
    numbersFilled := any ["number-nonblank"]
    squeezes := any ["squeeze-blank"]
    marksEnds := any ["show-ends", "show-all", "e"]
    showsTabs := any ["show-tabs", "show-all", "t"]
    showsHidden := any ["show-nonprinting", "show-all", "e", "t"] }

/-- Whether files are written as they are. -/
def CatStyle.isPlain (c : CatStyle) : Bool :=
  !(c.numbersAll || c.numbersFilled || c.squeezes || c.marksEnds || c.showsTabs || c.showsHidden)

/-- Where in its output `cat` is. -/
structure CatState where
  /-- How many lines have been numbered. -/
  lines : Nat := 0
  isLineStart : Bool := true
  /-- How many empty lines come before, at most two. -/
  empties : Nat := 0
  /-- Whether the byte before is a carriage return that has not been written yet. -/
  holdsReturn : Bool := false

/-- A byte that is shown even when it is not visible. -/
def visible (b : UInt8) : List UInt8 :=
  let low (b : UInt8) : List UInt8 :=
    if b < 32 then [94, b + 64] else if b = 127 then [94, 63] else [b]
  if b < 128 then low b else 77 :: 45 :: low (b - 128)

/-- A byte inside a line. -/
def CatStyle.shown (c : CatStyle) (b : UInt8) : List UInt8 :=
  if b = 9 then if c.showsTabs then [94, 73] else [9]
  else if c.showsHidden then visible b
  else [b]

/-- The number of a line, in front of it. -/
def lineNumber (n : Nat) : List UInt8 :=
  let ds := Nat.toDigits 10 n
  List.replicate (6 - ds.length) 32 ++ ds.map (fun c => c.toNat.toUInt8) ++ [9]

/-- What is written for a byte, and the state behind it. -/
def CatStyle.step (c : CatStyle) (s : CatState) (b : UInt8) : List UInt8 × CatState :=
  if b = 10 then
    let empties := if s.isLineStart then min 2 (s.empties + 1) else 0
    if c.squeezes && empties = 2 then ([], { s with empties })
    else
      let isNumbered := c.numbersAll && s.isLineStart
      let lines := if isNumbered then s.lines + 1 else s.lines
      let front := if isNumbered then lineNumber lines else []
      let held : List UInt8 := if s.holdsReturn then if c.marksEnds then [94, 77] else [13] else []
      (front ++ held ++ (if c.marksEnds then [36] else []) ++ [10],
        { lines, empties, isLineStart := true })
  else
    let held : List UInt8 := if s.holdsReturn then [13] else []
    let isNumbered := (c.numbersAll || c.numbersFilled) && s.isLineStart
    let lines := if isNumbered then s.lines + 1 else s.lines
    let front := if isNumbered then lineNumber lines else []
    let isHeld := c.marksEnds && !c.showsHidden && b = 13
    (held ++ front ++ (if isHeld then [] else c.shown b),
      { lines, isLineStart := false, empties := 0, holdsReturn := isHeld })

/-- What is written for bytes, and the state behind them. -/
def CatStyle.text (c : CatStyle) : CatState → List UInt8 → List UInt8 × CatState
  | s, [] => ([], s)
  | s, b :: rest =>
    let (now, s) := c.step s b
    let (later, s) := c.text s rest
    (now ++ later, s)

/-! ### Reading -/

/-- What an argument of `cat` leads to. -/
inductive Source where
  | bytes (bs : List UInt8)
  /-- What others write into the pipe with a number. -/
  | pipe (n : Nat)
  /-- What never ends. -/
  | endless
  | refused (text : String)

/-- The file that a descriptor writes to or reads from, and the place in it. -/
def fileOf? (l : Launch) (descriptor : Nat) : Option (Path × Nat × Access) :=
  match (Mapping.get? l.descriptors descriptor).bind fun n => l.machine.streams[n]? with
  | some (.file p offset access) => some (p, offset, access)
  | _ => none

/-- Whether a file whose bytes from a place on are read is the one that is written. -/
def isOutput (l : Launch) (p : Path) (offset : Nat) : Bool :=
  match fileOf? l 1 with
  | some (out, _, _) =>
    (l.machine.files.locate out).toOption = (l.machine.files.locate p).toOption
      && offset < (l.machine.fileBytes p).size
  | none => false

/-- What is read from a descriptor up to its end. -/
def sourceOf (l : Launch) (descriptor : Nat) : Source × Launch :=
  match (Mapping.get? l.descriptors descriptor).bind fun n => l.machine.streams[n]? with
  | none => (.refused "Bad file descriptor", l)
  | some .directory => (.refused (faultText .isDirectory), l)
  | some .zero => (.endless, l)
  | some .full => (.endless, l)
  | some (.source n) => (.pipe n, l)
  | some stream =>
    let isSame : Bool := match stream with
      | .file p offset _ => isOutput l p offset
      | _ => false
    if isSame then (.refused "input file is output file", l)
    else
      match l.readAll descriptor with
      | (some bytes, l) => (.bytes bytes, l)
      | (none, l) => (.refused "Bad file descriptor", l)

/-- What an argument leads to. -/
def sourceNamed (l : Launch) (name : String) : Source × Launch :=
  if name = "-" then sourceOf l 0
  else
    let ofFile (p : Path) (bytes : ByteArray) : Source :=
      if isOutput l p 0 then .refused "input file is output file" else .bytes bytes.data.toList
    match (Viewer.ofLaunch l).nodeAt name with
    | .ok (.file bytes _) => (ofFile (l.path name) bytes, l)
    | .ok (.device (.descriptor n)) =>
      match fileOf? l n with
      | some (p, _, _) => (ofFile p (l.machine.fileBytes p), l)
      | none => sourceOf l n
    | .ok (.device .null) => (.bytes [], l)
    | .ok (.device _) => (.endless, l)
    | .ok .directory => (.refused (faultText .isDirectory), l)
    | .ok (.program _) => (.bytes [], l)
    | .error f => (.refused (faultText f), l)

/-! ### Copying -/

/-- `cat` at work. -/
structure Copying where
  launch : Launch
  state : CatState := {}
  isOk : Bool := true
  /-- How the process ends before it is through. -/
  ending : Option (Launch → Finished) := none

namespace Copying

/-- The process after bytes are written, which is its end when they cannot be. -/
def write (c : Copying) (bytes : List UInt8) : Copying :=
  if bytes.isEmpty then c
  else
    match c.launch.write 1 bytes with
    | (launch, none) => { c with launch }
    | (launch, some f) => { c with launch, ending := some fun l => unwritten l f 1 }

/-- The process after bytes are copied. -/
def copyBytes (style : CatStyle) (c : Copying) (bytes : List UInt8) : Copying :=
  let (text, state) := if style.isPlain then (bytes, c.state) else style.text c.state bytes
  { c with state }.write text

/-- The process at a time, up to which it waits. -/
def await (c : Copying) (time : Nat) : Copying :=
  { c with launch := { c.launch with machine := c.launch.machine.await time } }

/-- The process after chunks are copied as they come, and the chunks that are left when it ends
before. -/
def copyChunks (style : CatStyle) : Copying → List Chunk → Copying × List Chunk
  | c, [] => (c, [])
  | c, k :: rest =>
    let c := (c.await k.time).copyBytes style k.bytes
    if c.ending.isSome then (c, rest) else copyChunks style c rest

/-- The process after it copied what is written into a pipe. -/
def copyPipe (style : CatStyle) (c : Copying) (n : Nat) : Copying :=
  match c.launch.machine.pipe? n with
  | none => c
  | some p =>
    let (c, ready) := c.copyChunks style p.chunks
    let m := c.launch.machine
    let p := ((m.pipe? n).getD p)
    let c := { c with launch := { c.launch with
      machine := m.setStream n (.pipe (p.withChunks ready)) } }
    if c.ending.isSome then c else c.await (m.lastWriting n)

/-- How much of what never ends is copied at once. -/
def blockSize : Nat := 131072

/-- The process that copies what never ends. -/
def copyForever (c : Copying) : Copying :=
  let block := List.replicate blockSize 0
  let c := c.write block
  if c.ending.isSome then c
  else
    let m := c.launch.machine
    let c := { c with launch := { c.launch with machine := m.pass Machine.forever } }.write block
    { c with ending := c.ending <|> some fun l => finish l 0 }

/-- The process after a file is copied. -/
def copy (style : CatStyle) (c : Copying) (name : String) : Copying :=
  if c.ending.isSome then c
  else
    let (source, launch) := sourceNamed c.launch name
    let c := { c with launch }
    match source with
    | .bytes bytes => c.copyBytes style bytes
    | .pipe n => c.copyPipe style n
    | .endless => c.copyForever
    | .refused text =>
      { c with launch := complain launch (quotedFile name ++ ": " ++ text), isOk := false }

end Copying

/-- The `cat` program. -/
def runCat (l : Launch) : Finished :=
  withOptions catOptions true 1 l fun options names =>
    if (Mapping.get? l.descriptors 1).isNone then
      refuse l ("standard output: " ++ writeFaultText .closed) 1
    else
      let style := CatStyle.ofOptions (options.map GivenOption.name)
      let names := if names.isEmpty then ["-"] else names
      let c := names.foldl (Copying.copy style) { launch := l }
      let c := if c.ending.isNone && c.state.holdsReturn then c.write [13] else c
      match c.ending with
      | some ending => ending c.launch
      | none =>
        if names.contains "-" && (Mapping.get? l.descriptors 0).isNone then
          refuse c.launch ("closing standard input: " ++ writeFaultText .closed) 1
        else finish c.launch (if c.isOk then 0 else 1)

end UnusedDeps.Host
