import UnusedDeps.Value.Basic

/-!
# Faults of a typed document

Checking a document against the types of its fields gives a list of faults, each
with the place it stands at: the names and indices that lead to it from the top.
-/

namespace UnusedDeps

/-- One step down into a document. -/
inductive Step where
  | name (s : String)
  | index (n : Int)
  deriving DecidableEq, Repr

/-- What is wrong at one place of a document. -/
inductive FaultKind where
  | missing
  | unknownName
  /-- The name of a field is no text. -/
  | invalidKey
  | notTable
  | notText
  /-- A text or a name holds half of a surrogate pair where only characters can be read. -/
  | notUnicode
  | notList
  | notTuple
  | notSet
  | tooLong
  | notInteger
  | unreadableInteger
  | integerTooLarge
  | fractionalNumber
  | infiniteNumber
  | notBool
  | unreadableBool
  | notNumber
  | unreadableNumber
  | notAChoice
  | notJson
  /-- The value has the right type and breaks a rule, which the text explains. -/
  | refused (reason : String)
  deriving DecidableEq, Repr

/-- A fault of a document. -/
structure SchemaFault where
  place : List Step
  kind : FaultKind
  deriving DecidableEq, Repr

namespace SchemaFault

/-- The fault as seen from one step further up. -/
def under (s : Step) (f : SchemaFault) : SchemaFault := { f with place := s :: f.place }

end SchemaFault

end UnusedDeps
