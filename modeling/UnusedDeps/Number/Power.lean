/-!
# Powers of the two bases

Binary numbers are scaled by powers of two, decimal ones by powers of ten.
-/

namespace UnusedDeps

/-- A power of two. -/
def twoPow (n : Nat) : Nat := Nat.pow 2 n

def tenPow (n : Nat) : Nat := Nat.pow 10 n

theorem twoPow_succ (n : Nat) : twoPow (n + 1) = 2 * twoPow n := by
  simp only [twoPow, Nat.pow_eq]
  exact Nat.pow_succ'

theorem twoPow_pos (n : Nat) : 0 < twoPow n := Nat.pow_pos (by decide)

end UnusedDeps
