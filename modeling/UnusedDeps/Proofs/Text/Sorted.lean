import Mathlib.Data.String.Basic
import UnusedDeps.Proofs.Order
import UnusedDeps.Text.Order

/-!
# Sorted texts

The elements of a list, each once, come out strictly increasing, and sorting by a
key leaves no element before one with a smaller key. Texts that keep code points
are told apart by them, so such texts come out strictly increasing by their code
points. Main statement: `Text.pairwise_sorted`.
-/

namespace UnusedDeps

theorem pairwise_insertUnique {α : Type} [LinearOrder α] {x : α} {ys : List α}
    (h : ys.Pairwise (· < ·)) : (insertUnique x ys).Pairwise (· < ·) := by
  induction ys with
  | nil => exact List.pairwise_singleton _ x
  | cons y ys ih =>
    obtain ⟨first, rest⟩ := List.pairwise_cons.1 h
    unfold insertUnique
    split
    · rename_i before
      refine List.pairwise_cons.2 ⟨fun z hz => ?_, h⟩
      rcases List.mem_cons.1 hz with rfl | hz
      · exact before
      · exact before.trans (first z hz)
    · rename_i notBefore
      split
      · exact h
      · rename_i other
        refine List.pairwise_cons.2 ⟨fun z hz => ?_, ih rest⟩
        rcases (mem_insertUnique x z ys).1 hz with rfl | hz
        · exact lt_of_le_of_ne (not_lt.1 notBefore) (Ne.symm other)
        · exact first z hz

theorem pairwise_sortUnique {α : Type} [LinearOrder α] (xs : List α) :
    (sortUnique xs).Pairwise (· < ·) := by
  induction xs with
  | nil => exact .nil
  | cons x xs ih => exact pairwise_insertUnique ih

theorem pairwise_sortByKey {α κ : Type} [LinearOrder κ] [DecidableLT κ] (key : α → κ)
    (xs : List α) : (sortByKey key xs).Pairwise fun a b => key a ≤ key b := by
  have trans (a b c : α) : (!decide (key b < key a)) = true → (!decide (key c < key b)) = true →
      (!decide (key c < key a)) = true := by
    simp only [Bool.not_eq_true', decide_eq_false_iff_not, not_lt]
    exact le_trans
  have total (a b : α) : (!decide (key b < key a) || !decide (key a < key b)) = true := by
    simp only [Bool.or_eq_true, Bool.not_eq_true', decide_eq_false_iff_not, not_lt]
    exact le_total _ _
  exact (List.pairwise_mergeSort trans total xs).imp fun h => by simpa using h

theorem Text.pairwise_sorted {ss : List String} (coded : ∀ s ∈ ss, IsCoded s) :
    (sorted ss).Pairwise fun s t => codes s < codes t := by
  have perm : (sorted ss).Perm (sortUnique ss) := List.mergeSort_perm _ _
  have distinct : (sorted ss).Nodup :=
    perm.nodup_iff.2 ((pairwise_sortUnique ss).imp ne_of_lt)
  have increasing : (sorted ss).Pairwise fun s t => codes s ≤ codes t :=
    pairwise_sortByKey codes (sortUnique ss)
  refine (increasing.and distinct).imp_of_mem ?_
  intro s t hs ht ⟨le, other⟩
  have hs := coded s ((mem_sorted s ss).1 hs)
  have ht := coded t ((mem_sorted t ss).1 ht)
  exact lt_of_le_of_ne le fun heq => other ((codes_inj hs ht).1 heq)

end UnusedDeps
