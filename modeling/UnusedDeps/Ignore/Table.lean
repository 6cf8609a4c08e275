import UnusedDeps.Logged
import UnusedDeps.Package.Kind
import UnusedDeps.Package.Metadata
import UnusedDeps.Schema.Read

/-!
# Ignore tables

The owner of a package can name dependencies that are not to be reported, for
each kind, in the table `package.metadata.cargo-udeps.ignore` of the manifest.
Keys of other tools beside `cargo-udeps` are not looked at, but each must be a
text; inside that table and inside its ignore table only known keys may stand.
-/

namespace UnusedDeps

/-- The dependencies that are not to be reported. -/
structure IgnoreTable where
  normal : List String
  development : List String
  build : List String
  deriving DecidableEq, Repr

namespace IgnoreTable

/-- The table that names nothing. -/
def empty : IgnoreTable := ⟨[], [], []⟩

def names (t : IgnoreTable) : DependencyKind → List String
  | .normal => t.normal
  | .development => t.development
  | .build => t.build

def contains (t : IgnoreTable) (kind : DependencyKind) (name : Value) : Bool :=
  (t.names kind).any fun n => name.key? = some (.text n)

/-! ### Reading -/

def readNames (fields : Fields) (kind : DependencyKind) : Checked (List String) :=
  Read.optional fields kind.text [] (Read.listOr .notSet Read.text)

def read (fields : Fields) : Checked IgnoreTable :=
  let tables : Checked (List String → List String → List String → IgnoreTable) := .ok IgnoreTable.mk
  let t := (tables.apply (readNames fields .normal)).apply (readNames fields .development)
  let t := t.apply (readNames fields .build)
  Read.named fields
    ((Checked.both t (Read.onlyNames fields (DependencyKind.all.map (·.text)))).map (·.1))

def readOwner (fields : Fields) : Checked IgnoreTable :=
  Read.named fields
    ((Checked.both (Read.optional fields "ignore" empty (Read.table read))
      (Read.onlyNames fields ["ignore"])).map (·.1))

/-- The key of the metadata that is read. -/
def ownKey : String := "cargo-udeps"

/-- The other spelling of the key, which counts when the first is not there. -/
def ownKeyAsName : String := "cargo_udeps"

/-- The table under the key of the metadata that is read. -/
def readOwn (fields : Fields) : Checked IgnoreTable :=
  if (Mapping.get? fields ownKey).isSome then
    Read.optional fields ownKey empty (Read.table readOwner)
  else Read.optional fields ownKeyAsName empty (Read.table readOwner)

/-- The place of an entry whose key is no text. -/
def strayPlace : Value → Step
  | .bool b => .index (if b then 1 else 0)
  | .int n => if Read.isWord n then .index n else .name (toString n)
  | v => .name v.plainText

/-- Checks that every key is a text. -/
def onlyTexts (metadata : Metadata) : Checked Unit :=
  if metadata.strays.isEmpty then .ok ()
  else .error (metadata.strays.map fun e => ⟨[strayPlace e.1], .invalidKey⟩)

def readMetadata (metadata : Metadata) : Checked IgnoreTable :=
  Read.named metadata.fields
    ((Checked.both (readOwn metadata.fields) (onlyTexts metadata)).map (·.1))

def ofMetadata (metadata : Option Metadata) (manifest : Option Path) :
    Except Problem (Option IgnoreTable) :=
  match metadata with
  | none => .ok none
  | some m =>
    match readMetadata m with
    | .ok t => .ok (some t)
    | .error faults => .error (.invalidMetadata manifest faults)

/-- The ignore table in a value that stands for the metadata; null is none. -/
def ofValue (v : Value) (manifest : Option Path) : Except Fault (Option IgnoreTable) :=
  match v with
  | .null => .ok none
  | v => do
    let m ← (Metadata.ofValue v).mapError .ofTable
    (ofMetadata (some m) manifest).mapError .problem

end IgnoreTable

end UnusedDeps
