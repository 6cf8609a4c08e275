import UnusedDeps.Json.Reader

/-!
# The two kinds of JSON documents

Documents of the package manager and of a build are read with the limits that
programs usually have. Artifacts of the compiler are read more strictly: half a
surrogate pair is refused, and the nesting is limited far earlier.
-/

namespace UnusedDeps.Json

def documentRules : Rules where
  halfPairs := .kept
  maxDepth := 988
  countsEmpty := true
  limitsFractions := false

def artifactRules : Rules where
  halfPairs := .refused
  maxDepth := 200
  countsEmpty := false
  limitsFractions := true

def document (s : String) : Except ReadFault Value := read documentRules s

def artifact (s : String) : Except ReadFault Value := read artifactRules s

end UnusedDeps.Json
