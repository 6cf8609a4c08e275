import UnusedDeps.Text.Blank
import UnusedDeps.Text.Utf8

/-!
# Paths

A path is its anchor and its parts, read off a text without looking at any
file: empty parts and single dots vanish, `..` stays. Two slashes at the front
are an anchor of their own, three or more are one. `resolve` takes a relative
path from the working directory of the process and removes `..` lexically, and
`toUri` writes an absolute path as a `file` URI. Not every path can be that of a
file.
-/

namespace UnusedDeps

/-- Where a path starts. -/
inductive Anchor where
  | relative
  | root
  | doubleRoot
  deriving DecidableEq, Repr

def Anchor.text : Anchor → String
  | .relative => ""
  | .root => "/"
  | .doubleRoot => "//"

def isPathPart (s : String) : Bool := s ≠ "" && s ≠ "." && !s.toList.contains '/'

/-- A lexical path. -/
structure Path where
  anchor : Anchor
  parts : List String
  parts_ok : ∀ p ∈ parts, isPathPart p = true
  deriving DecidableEq

namespace Path

/-! ### Reading and writing -/

/-- The anchor that a text starts with. -/
def anchorOf (cs : List Char) : Anchor :=
  match cs with
  | '/' :: '/' :: '/' :: _ => .root
  | '/' :: '/' :: _ => .doubleRoot
  | '/' :: _ => .root
  | _ => .relative

def ofText (s : String) : Path where
  anchor := anchorOf s.toList
  parts := (Text.splitOnChar '/' s).filter isPathPart
  parts_ok := fun _ h => (List.mem_filter.1 h).2

/-- The text of a path; the empty relative path is a dot. -/
def text (p : Path) : String :=
  if p.anchor = .relative && p.parts.isEmpty then "."
  else p.anchor.text ++ String.intercalate "/" p.parts

instance : ToString Path := ⟨text⟩

/-! ### Moving about -/

/-- The path without its last part. -/
def parent (p : Path) : Path where
  anchor := p.anchor
  parts := p.parts.dropLast
  parts_ok := fun x h => p.parts_ok x (List.dropLast_subset _ h)

/-- The second path as seen from the first: an anchored one stands for itself. -/
def join (p q : Path) : Path :=
  if q.anchor = .relative then
    { anchor := p.anchor
      parts := p.parts ++ q.parts
      parts_ok := fun x h => (List.mem_append.1 h).elim (p.parts_ok x) (q.parts_ok x) }
  else q

/-- The path that a text denotes as seen from this one. -/
def child (p : Path) (s : String) : Path := p.join (ofText s)

/-- The parts that remain when each `..` takes away the part before it; `kept` holds those so far,
last first. -/
def resolveParts : List String → List String → List String
  | kept, [] => kept.reverse
  | kept, p :: rest =>
    if p = ".." then resolveParts kept.tail rest else resolveParts (p :: kept) rest

theorem mem_of_mem_resolveParts {x : String} (kept parts : List String)
    (h : x ∈ resolveParts kept parts) : x ∈ kept ∨ x ∈ parts := by
  induction parts generalizing kept with
  | nil =>
    rw [resolveParts, List.mem_reverse] at h
    exact Or.inl h
  | cons p rest ih =>
    rw [resolveParts] at h
    split at h
    · rcases ih _ h with h | h
      · exact Or.inl (List.mem_of_mem_tail h)
      · exact Or.inr (List.mem_cons_of_mem _ h)
    · rcases ih _ h with h | h
      · rcases List.mem_cons.1 h with h | h
        · exact Or.inr (h ▸ List.mem_cons_self)
        · exact Or.inl h
      · exact Or.inr (List.mem_cons_of_mem _ h)

/-- The path without `..`. -/
def direct (p : Path) : Path where
  anchor := p.anchor
  parts := resolveParts [] p.parts
  parts_ok := fun x h =>
    p.parts_ok x ((mem_of_mem_resolveParts [] _ h).resolve_left List.not_mem_nil)

/-! ### Paths that are none of a file -/

/-- Why a path cannot be that of a file. -/
inductive NameFault where
  /-- The path holds a zero character. -/
  | zero
  /-- The path holds half a surrogate pair that stands for no byte. -/
  | noBytes
  deriving DecidableEq, Repr

/-- What is wrong with a text as the name of a file, an argument or a variable. -/
def nameFault? (s : String) : Option NameFault :=
  if (Text.hostBytes? s).isNone then some .noBytes
  else if s.toList.contains '\x00' then some .zero
  else none

/-- What is wrong with a path as that of a file. -/
def fault? (p : Path) : Option NameFault := nameFault? p.text

end Path

/-! ### The place of a process -/

/-- Where a process finds itself, which no step is told. -/
class Whereabouts where
  /-- The name of the working directory, a text of characters. -/
  directory : String
  sound : Path.nameFault? (Text.ofPlain directory) = none
  /-- The accounts of the host with their home directories. -/
  accounts : List (String × String)

/-- A process in a directory two levels below the root, under a name that no document knows. -/
instance (priority := low) Whereabouts.usual : Whereabouts where
  directory := "/tmp/udeps-working-directory"
  sound := by decide
  accounts :=
    [("root", "/root"), ("daemon", "/usr/sbin"), ("bin", "/bin"), ("sys", "/dev"),
     ("sync", "/bin"), ("games", "/usr/games"), ("man", "/var/cache/man"),
     ("lp", "/var/spool/lpd"), ("mail", "/var/mail"), ("news", "/var/spool/news"),
     ("uucp", "/var/spool/uucp"), ("proxy", "/bin"), ("www-data", "/var/www"),
     ("backup", "/var/backups"), ("list", "/var/list"), ("irc", "/run/ircd"),
     ("_apt", "/nonexistent"), ("nobody", "/nonexistent")]

namespace Path

section

variable [Whereabouts]

/-- The directory in which relative paths are taken. -/
def workingDirectory : Path := ofText (Text.ofPlain Whereabouts.directory)

/-- The path from the root without `..`. -/
def resolve (p : Path) : Path := { (workingDirectory.join p).direct with anchor := .root }

/-- The path from the working directory on when it leads below that, else the path itself. -/
def nearby (p : Path) : Path :=
  if p.anchor = .root && workingDirectory.parts.isPrefixOf p.parts then
    { anchor := .relative
      parts := p.parts.drop workingDirectory.parts.length
      parts_ok := fun x h => p.parts_ok x (List.mem_of_mem_drop h) }
  else p

end

/-! ### URIs and order -/

/-- The upper-case hexadecimal digit of a number below sixteen. -/
def upperHexDigit (n : Nat) : Char :=
  if n < 10 then Char.ofNat (0x30 + n) else Char.ofNat (0x37 + n)

/-- Whether a byte stands for itself in a URI path. -/
def isUriByte (b : UInt8) : Bool :=
  let c := Char.ofNat b.toNat
  c.isAlphanum || c = '_' || c = '.' || c = '-' || c = '~' || c = '/'

/-- A byte in a URI path: itself, or a percent sign and two hexadecimal digits. -/
def uriByte (b : UInt8) : List Char :=
  if isUriByte b then [Char.ofNat b.toNat]
  else ['%', upperHexDigit (b.toNat / 16), upperHexDigit (b.toNat % 16)]

/-- The `file` URI of a path. -/
def toUri (p : Path) : String :=
  let bytes := (Text.hostBytes? p.text).getD []
  "file://" ++ String.ofList (bytes.flatMap uriByte)

/-- The code points of the parts by which paths are sorted, the anchor first. -/
def sortKey (p : Path) : List (List Nat) :=
  let parts := match p.anchor with
    | .relative => p.parts
    | a => a.text :: p.parts
  parts.map Text.codes

end Path

end UnusedDeps
