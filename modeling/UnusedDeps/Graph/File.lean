import UnusedDeps.Files.Tree
import UnusedDeps.Graph.Resolve
import UnusedDeps.Json.Document

/-!
# Saved resolver documents

A resolver document can be read from a file instead of being asked for.
-/

namespace UnusedDeps

/-- The value of a JSON text; `refusal` is the fault of a text that is no JSON. -/
def valueOfJson (s : String) (refusal : Fault) : Except Fault Value :=
  (Json.document s).mapError (.ofJson refusal)

/-- The graph of the resolver document in a file. -/
def Graph.ofFile [Whereabouts] (files : FileTree) (path : Path) : Logged Graph := do
  let s ← .ofExcept (files.readOr path (.unreadableGraph path))
  let v ← .ofExcept (valueOfJson s (.problem (.unreadableGraph path .notJson)))
  Graph.ofValue v

end UnusedDeps
