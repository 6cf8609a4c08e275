import UnusedDeps.Graph.File
import UnusedDeps.Invocation.Record
import UnusedDeps.Json.Printer
import UnusedDeps.Order

/-!
# The spool directory

A build and the compiler wrappers that it starts share a directory. The build
leaves an index there that tells the package of each manifest directory, and a
wrapper leaves a file for each record. Both are JSON texts that can be read back.
Anything can stand in the directory, so its files are known by their bytes.
-/

namespace UnusedDeps

/-- The packages of a build by their manifest directories. -/
abbrev PackagesIndex := Mapping Path PackageId

/-- The files in a spool directory: names and bytes. -/
abbrev SpoolFiles := List (String × ByteArray)

/-- The files that hold texts. -/
def SpoolFiles.ofTexts (files : List (String × String)) : SpoolFiles :=
  files.map fun f => (f.1, FileTree.bytesOf f.2)

namespace Spool

def directoryVariable : String := "UDEPS_SPOOL_DIR"

/-- The variable that holds the executable which compiled units receive as `CARGO`. -/
def executableVariable : String := "UDEPS_CARGO_EXE"

def indexName : String := "packages.json"

/-- What the names of record files end with. -/
def recordEnd : String := ".record.json"

/-! ### Records -/

def isRecordName (name : String) : Bool := recordEnd.toList.isSuffixOf name.toList

def recordText (r : InvocationRecord) : String := Json.print .ascii r.toValue

/-- The bytes of the file of a record. -/
def recordBytes (r : InvocationRecord) : ByteArray := FileTree.bytesOf (recordText r)

/-- How many levels of a value there is room for when a record is read: as many as a document can
have. -/
def room : Nat := Json.documentRules.maxDepth

/-- The record in a text. -/
def recordOfText (s : String) : Except Fault InvocationRecord := do
  InvocationRecord.ofValueWithin room (← valueOfJson s .notJson)

/-- The record in a file with some bytes. -/
def readRecord (bytes : ByteArray) : Except Fault InvocationRecord :=
  match FileTree.textOf? bytes with
  | none => .error .notUtf8
  | some s => recordOfText s

end Spool

namespace PackagesIndex

def entryOf [Whereabouts] (p : PackageInfo) : Except Fault (Path × PackageId) :=
  match p.manifestPath.parent.fault? with
  | some f => .error (.ofName f)
  | none => .ok (p.manifestPath.parent.resolve, p.id)

/-- The index of the packages of a graph; of two packages with one directory the later counts. -/
def ofGraph [Whereabouts] (g : Graph) : Except Fault PackagesIndex := do
  return Mapping.ofPairs (← (← g.sortedPackages).mapM entryOf)

/-- The entries by directory. -/
def sorted (index : PackagesIndex) : List (Path × PackageId) :=
  sortByKey (fun e => e.1.sortKey) index

/-- An entry as a table. -/
def rowValue (e : Path × PackageId) : Value :=
  .table [("manifest_dir", .text e.1.text), ("name", e.2.name), ("version", e.2.version),
    ("source", e.2.source)]

def toText (index : PackagesIndex) : String := Json.print .ascii (.list (index.sorted.map rowValue))

/-- The fault of a row that gives no entry. -/
def rowFault : Complaint → Fault
  | .missingKey name => .missingKey name
  | _ => .wrongType

/-- The entry that a row gives. -/
def ofRow (row : Value) : Except Fault (Path × PackageId) :=
  Except.mapError rowFault do
    let directory ← InvocationRecord.textOf (← InvocationRecord.field row "manifest_dir")
    return (Path.ofText directory, ← InvocationRecord.packageOf row)

/-- The index that a value gives; of two rows with one directory the later counts. -/
def ofValue (v : Value) : Except Fault PackagesIndex :=
  match v.elements? with
  | none => .error .wrongType
  | some rows => (rows.mapM ofRow).map Mapping.ofPairs

def ofText (s : String) : Except Fault PackagesIndex := do
  ofValue (← valueOfJson s .notJson)

/-- The index in a file; empty when there is no such file. -/
def read (files : FileTree) (p : Path) : Except Fault PackagesIndex :=
  match files.isFile p with
  | .error f => .error (.file f p)
  | .ok false => .ok []
  | .ok true => do ofText (← files.read p)

end PackagesIndex

end UnusedDeps
