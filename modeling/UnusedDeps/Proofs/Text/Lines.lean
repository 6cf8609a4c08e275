import Mathlib.Data.List.TakeWhile
import UnusedDeps.Proofs.Path
import UnusedDeps.Proofs.Text.Utf8
import UnusedDeps.Text.Blank

/-!
# Lines that are joined by line feeds

A text ends its lines at more characters than a line feed, so a line that was
written between two line feeds comes back in pieces. Up to blank pieces, these are
the lines of the whole text. Main statement: `filter_linesOf_intercalate`.
-/

namespace UnusedDeps.Text

/-- Whether characters hold no line feed and no carriage return. -/
structure IsOneLine (l : List Char) : Prop where
  lineFeed : '\n' ∉ l
  carriageReturn : '\r' ∉ l

/-- Whether one of several characters is no white space. -/
def isFilled (l : List Char) : Bool := !l.all isBlank

theorem isFilled_iff {l : List Char} : isFilled l = true ↔ ∃ c ∈ l, isBlank c = false := by
  simp [isFilled]

theorem isFilled_of_mem {l : List Char} {c : Char} (hc : c ∈ l) (h : isBlank c = false) :
    isFilled l = true := isFilled_iff.2 ⟨c, hc, h⟩

/-! ### Pieces -/

section Pieces

variable {p : Char → Bool}

theorem pieces_ne_nil (p : Char → Bool) (cs : List Char) : pieces p cs ≠ [] := by
  cases cs with
  | nil => simp [pieces]
  | cons c cs =>
    rw [pieces]
    split
    · simp
    · split <;> simp

theorem pieces_cons_of_not {c : Char} (h : p c = false) {cs w : List Char} {ws : List (List Char)}
    (hcs : pieces p cs = w :: ws) : pieces p (c :: cs) = (c :: w) :: ws := by
  rw [pieces, if_neg (by simp [h]), hcs]

theorem mem_of_mem_pieces {cs w : List Char} (hw : w ∈ pieces p cs) : ∀ c ∈ w, c ∈ cs := by
  induction cs generalizing w with
  | nil =>
    cases List.mem_singleton.1 hw
    exact fun c hc => absurd hc List.not_mem_nil
  | cons d cs ih =>
    intro c hc
    cases hd : p d with
    | true =>
      rw [pieces, if_pos hd] at hw
      rcases List.mem_cons.1 hw with heq | hw
      · exact absurd (heq ▸ hc) List.not_mem_nil
      · exact List.mem_cons_of_mem d (ih hw c hc)
    | false =>
      obtain ⟨v, vs, hvs⟩ := List.exists_cons_of_ne_nil (pieces_ne_nil p cs)
      rw [pieces_cons_of_not hd hvs] at hw
      rw [hvs] at ih
      rcases List.mem_cons.1 hw with heq | hw
      · rcases List.mem_cons.1 (heq ▸ hc) with rfl | hc
        · exact List.mem_cons_self
        · exact List.mem_cons_of_mem d (ih List.mem_cons_self c hc)
      · exact List.mem_cons_of_mem d (ih (List.mem_cons_of_mem v hw) c hc)

end Pieces

/-! ### Cuts -/

theorem cut_of_notMem {sep : Char} {cs : List Char} (h : sep ∉ cs) : cut sep cs = (cs, none) := by
  induction cs with
  | nil => rfl
  | cons c cs ih =>
    rw [List.mem_cons, not_or] at h
    rw [cut, if_neg fun hc => h.1 hc.symm, ih h.2]

theorem cut_append_cons {sep : Char} {cs : List Char} (h : sep ∉ cs) (r : List Char) :
    cut sep (cs ++ sep :: r) = (cs, some r) := by
  induction cs with
  | nil => rw [List.nil_append, cut, if_pos rfl]
  | cons c cs ih =>
    rw [List.mem_cons, not_or] at h
    rw [List.cons_append, cut, if_neg fun hc => h.1 hc.symm, ih h.2]

theorem cut_cases (sep : Char) (cs : List Char) :
    sep ∉ cs ∨ ∃ front r, sep ∉ front ∧ cs = front ++ sep :: r := by
  by_cases h : sep ∈ cs
  · obtain ⟨front, r, rfl, apart⟩ := List.eq_append_cons_of_mem h
    exact .inr ⟨front, r, apart, rfl⟩
  · exact .inl h

/-- What stands in front of the first separator, and what stands behind it, are known. -/
theorem append_cons_inj {sep : Char} {as bs xs ys : List Char} (ha : sep ∉ as) (hb : sep ∉ bs)
    (h : as ++ sep :: xs = bs ++ sep :: ys) : as = bs ∧ xs = ys := by
  have cuts := congrArg (cut sep) h
  rw [cut_append_cons ha, cut_append_cons hb, Prod.mk.injEq, Option.some.injEq] at cuts
  exact cuts

/-! ### Lines -/

theorem linesOf_cons_of_end {c : Char} (h : isLineEnd c = true) (hc : c ≠ '\r') (cs : List Char) :
    linesOf (c :: cs) = [] :: linesOf cs := by
  rw [linesOf.eq_3 _ _ (by simp [hc]), if_pos h]

theorem linesOf_cons_of_not {c : Char} (h : isLineEnd c = false) {cs l : List Char}
    {ls : List (List Char)} (hcs : linesOf cs = l :: ls) : linesOf (c :: cs) = (c :: l) :: ls := by
  have hc : c ≠ '\r' := by
    rintro rfl
    exact absurd h (by decide)
  rw [linesOf.eq_3 _ _ (by simp [hc]), if_neg (by simp [h]), hcs]

theorem linesOf_singleton {c : Char} (h : isLineEnd c = false) : linesOf [c] = [[c]] := by
  have hc : c ≠ '\r' := by
    rintro rfl
    exact absurd h (by decide)
  rw [linesOf.eq_3 _ _ (by simp [hc]), if_neg (by simp [h]), linesOf]

theorem linesOf_of_not {l : List Char} (some : l ≠ []) (h : ∀ c ∈ l, isLineEnd c = false) :
    linesOf l = [l] := by
  induction l with
  | nil => exact absurd rfl some
  | cons c l ih =>
    rw [List.forall_mem_cons] at h
    cases l with
    | nil => exact linesOf_singleton h.1
    | cons d l => exact linesOf_cons_of_not h.1 (ih (List.cons_ne_nil d l) h.2)

theorem linesOf_ne_nil {cs : List Char} (some : cs ≠ []) : linesOf cs ≠ [] := by
  fun_cases linesOf cs with
  | case1 => exact absurd rfl some
  | _ => simp

/-- The lines up to a line feed are the pieces in front of it. -/
theorem linesOf_append_lineFeed {l : List Char} (h : '\r' ∉ l) (rest : List Char) :
    linesOf (l ++ '\n' :: rest) = pieces isLineEnd l ++ linesOf rest := by
  induction l with
  | nil => exact linesOf_cons_of_end (by decide) (by decide) rest
  | cons c l ih =>
    rw [List.mem_cons, not_or] at h
    rw [List.cons_append]
    cases hc : isLineEnd c with
    | true => rw [linesOf_cons_of_end hc (Ne.symm h.1), ih h.2, pieces, if_pos hc, List.cons_append]
    | false =>
      obtain ⟨w, ws, hws⟩ := List.exists_cons_of_ne_nil (pieces_ne_nil isLineEnd l)
      have rest := ih h.2
      rw [hws, List.cons_append] at rest
      rw [linesOf_cons_of_not hc rest, pieces_cons_of_not hc hws, List.cons_append]

/-- At the end of a text an empty piece is no line. -/
theorem pieces_eq_linesOf {l : List Char} (h : '\r' ∉ l) :
    pieces isLineEnd l = linesOf l ∨ pieces isLineEnd l = linesOf l ++ [[]] := by
  induction l with
  | nil => exact .inr rfl
  | cons c l ih =>
    rw [List.mem_cons, not_or] at h
    have rest := ih h.2
    cases hc : isLineEnd c with
    | true =>
      rw [linesOf_cons_of_end hc (Ne.symm h.1), pieces, if_pos hc, List.cons_append,
        List.cons.injEq, List.cons.injEq]
      exact rest.imp (And.intro rfl) (And.intro rfl)
    | false =>
      cases hl : linesOf l with
      | nil =>
        have nothing : l = [] := by
          by_contra some
          exact linesOf_ne_nil some hl
        subst nothing
        rw [linesOf_singleton hc]
        exact .inl (pieces_of_forall_not (by simpa using hc))
      | cons w ws =>
        rw [linesOf_cons_of_not hc hl, List.cons_append]
        rw [hl, List.cons_append] at rest
        exact rest.imp (pieces_cons_of_not hc) (pieces_cons_of_not hc)

theorem filter_linesOf {l : List Char} (h : '\r' ∉ l) :
    (linesOf l).filter isFilled = (pieces isLineEnd l).filter isFilled := by
  rcases pieces_eq_linesOf h with heq | heq
  · rw [heq]
  · rw [heq, List.filter_append]
    have none : [[]].filter isFilled = [] := by decide
    rw [none, List.append_nil]

/-- Up to blank ones, the lines of joined lines are the pieces of each. -/
theorem filter_linesOf_intercalate {ls : List (List Char)} (h : ∀ l ∈ ls, '\r' ∉ l) :
    (linesOf (List.intercalate ['\n'] ls)).filter isFilled =
      (ls.flatMap (pieces isLineEnd)).filter isFilled := by
  induction ls with
  | nil => rfl
  | cons l ls ih =>
    rw [List.forall_mem_cons] at h
    cases ls with
    | nil =>
      rw [List.intercalate_singleton, filter_linesOf h.1, List.flatMap_cons, List.flatMap_nil,
        List.append_nil]
    | cons l' ls =>
      have rest := ih h.2
      have front : (l :: l' :: ls).flatMap (pieces isLineEnd) =
          pieces isLineEnd l ++ (l' :: ls).flatMap (pieces isLineEnd) := List.flatMap_cons
      rw [List.intercalate_cons_cons, List.append_assoc, List.singleton_append,
        linesOf_append_lineFeed h.1, List.filter_append, rest, front, List.filter_append]

/-- Lines without line feeds are found again between the line feeds that join them. -/
theorem splitOnChar_lineFeed {ls : List String} (some : ls ≠ [])
    (h : ∀ l ∈ ls, '\n' ∉ l.toList) : splitOnChar '\n' (String.intercalate "\n" ls) = ls := by
  have feed : "\n".toList = ['\n'] := rfl
  have apart : ∀ cs ∈ ls.map String.toList, ∀ c ∈ cs, (c == '\n') = false := by
    intro cs hcs c hc
    obtain ⟨l, hl, rfl⟩ := List.mem_map.1 hcs
    exact beq_false_of_ne fun heq => h l hl (heq ▸ hc)
  rw [splitOnChar, String.toList_intercalate, feed,
    pieces_intercalate (by simp) (by simpa using some) apart, List.map_map]
  simp [Function.comp_def]

/-! ### Files -/

theorem foldNewlines_of_notMem {cs : List Char} (h : '\r' ∉ cs) : foldNewlines cs = cs := by
  induction cs with
  | nil => rfl
  | cons c cs ih =>
    rw [List.mem_cons, not_or] at h
    have plain : c ≠ '\r' := Ne.symm h.1
    rw [foldNewlines.eq_4 _ _ (by simp [plain]) (by simp [plain]), ih h.2]

theorem forall_mem_intercalate {P : Char → Prop} {sep : Char} (hsep : P sep)
    {ls : List (List Char)} (h : ∀ l ∈ ls, ∀ c ∈ l, P c) :
    ∀ c ∈ List.intercalate [sep] ls, P c := by
  induction ls with
  | nil => exact List.forall_mem_nil _
  | cons l ls ih =>
    rw [List.forall_mem_cons] at h
    cases ls with
    | nil =>
      rw [List.intercalate_singleton]
      exact h.1
    | cons l' ls =>
      rw [List.intercalate_cons_cons, List.forall_mem_append, List.forall_mem_append]
      exact ⟨⟨h.1, by simpa using hsep⟩, ih h.2⟩

/-! ### What is kept of a line -/

theorem isLow_of_isLineEnd {c : Char} (h : isLineEnd c = true) : isLow c = true := by
  have each : ∀ n ∈ [0x0a, 0x0b, 0x0c, 0x0d, 0x1c, 0x1d, 0x1e, 0x85, 0x2028, 0x2029],
      n < 0x100000 := by decide
  exact decide_eq_true (each c.toNat (List.contains_iff_mem.1 h))

theorem isLow_of_isBlank {c : Char} (h : isBlank c = true) : isLow c = true := by
  have each : ∀ r ∈ blankRanges, r.2 < 0x100000 := by decide
  obtain ⟨r, hr, inside⟩ := List.any_eq_true.1 h
  simp only [Bool.and_eq_true, decide_eq_true_eq] at inside
  exact decide_eq_true (inside.2.trans_lt (each r hr))

theorem isFilled_kept {l : List Char} (h : isFilled l = true) : isFilled (kept l) = true := by
  obtain ⟨c, hc, given⟩ := isFilled_iff.1 h
  exact isFilled_of_mem (mem_kept hc) given

/-- What is kept of characters without line ends has none. -/
theorem kept_unended {cs : List Char} (h : ∀ c ∈ cs, isLineEnd c = false) :
    ∀ c ∈ kept cs, isLineEnd c = false := by
  intro c hc
  by_contra ends
  rw [Bool.not_eq_false] at ends
  have plain := h c (mem_of_mem_kept (isLow_of_isLineEnd ends) hc)
  rw [ends] at plain
  cases plain

/-! ### Blank lines -/

theorem trimBoth_eq_nil {p : Char → Bool} {cs : List Char} :
    trimBoth p cs = [] ↔ ∀ c ∈ cs, p c = true := by
  have front : (cs.dropWhile p).reverse.dropWhile p = [] ↔ cs.dropWhile p = [] := by
    rw [List.dropWhile_eq_nil_iff]
    constructor
    · intro h
      by_contra some
      have first := List.head_dropWhile_not p some
      rw [h _ (List.mem_reverse.2 (List.head_mem some))] at first
      cases first
    · intro h
      simp [h]
  rw [trimBoth, List.reverse_eq_nil_iff, front, List.dropWhile_eq_nil_iff]

theorem strip_isEmpty (s : String) : (strip s).isEmpty = !isFilled s.toList := by
  rw [isFilled, Bool.not_not, Bool.eq_iff_iff, String.isEmpty_iff, strip,
    String.ofList_eq_empty_iff, trimBoth_eq_nil, List.all_eq_true]

end UnusedDeps.Text
