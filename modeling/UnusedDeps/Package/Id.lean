import UnusedDeps.Path.Basic
import UnusedDeps.Value.Equality
import UnusedDeps.Value.Key
import UnusedDeps.Value.Text

/-!
# Package identities

A package is known by its name, its version and its source. All three are texts
in a well-formed document; where a document gives another value, that value is
kept. The source of a package on the local file system starts with `path+` and
goes on with the URI of its directory. Identities are compared and sorted as
keys, by name, then version, then source.
-/

namespace UnusedDeps

/-- The identity of a resolved package. -/
structure PackageId where
  name : Value
  version : Value
  source : Value
  deriving DecidableEq, Repr

namespace PackageId

/-- What the source of a package on the local file system starts with. -/
def localStart : String := "path+"

/-- Whether the package lives on the local file system; only a source that is a text tells. -/
def isLocal? (p : PackageId) : Option Bool :=
  match p.source with
  | .text s => some (localStart.toList.isPrefixOf s.toList)
  | _ => none

/-- The identity of a package in a local directory. -/
def ofDirectory [Whereabouts] (name version : Value) (directory : Path) :
    Except Path.NameFault PackageId :=
  match directory.fault? with
  | some f => .error f
  | none => .ok ⟨name, version, .text (localStart ++ directory.resolve.toUri)⟩

def text (p : PackageId) : String :=
  p.name.plainText ++ " " ++ p.version.plainText ++ " (" ++ p.source.plainText ++ ")"

instance : ToString PackageId := ⟨text⟩

/-! ### Identities as keys -/

/-- The keys of the three parts, when each has one. -/
def keys? (p : PackageId) : Option (List Key) := keysOf? [p.name, p.version, p.source]

/-- Whether two identities are those of one package. -/
def same (p q : PackageId) : Bool := p.keys?.isSome && p.keys? = q.keys?

theorem keys?_texts (name version source : String) :
    keys? ⟨.text name, .text version, .text source⟩
      = some [.text name, .text version, .text source] := rfl

/-- Identities made of texts are those of one package only when they are equal. -/
theorem same_texts (name version source name' version' source' : String) :
    same ⟨.text name, .text version, .text source⟩ ⟨.text name', .text version', .text source'⟩
      = true ↔ name = name' ∧ version = version' ∧ source = source' := by
  simp [same, keys?_texts]

end PackageId

end UnusedDeps
