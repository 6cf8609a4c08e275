import UnusedDeps.Order
import UnusedDeps.Text.Codes

/-!
# The order of texts

Texts are ordered by the first code points in which they differ, and a text comes
before those that it starts. Main statement: sorting keeps exactly the texts that
were there.
-/

namespace UnusedDeps.Text

def order (s t : String) : Ordering := compareOfLessAndEq (codes s) (codes t)

/-- The texts in increasing order, each once. -/
def sorted (ss : List String) : List String := sortByKey codes (sortUnique ss)

theorem mem_sorted (s : String) (ss : List String) : s ∈ sorted ss ↔ s ∈ ss := by
  rw [sorted, mem_sortByKey, mem_sortUnique]

end UnusedDeps.Text
