import Mathlib.Data.List.TakeWhile
import UnusedDeps.Json.Reader

/-!
# Every spelling of a number is read

A number is digits with a sign in front and a fraction and an exponent behind, each
of which may be left out. The reader takes it up to a character that cannot go on
with it. Main statements: `number_spelled` and `scalar_spelled`.
-/

namespace UnusedDeps.Json

/-! ### Spellings -/

def AllDigits (cs : List Char) : Prop := ∀ c ∈ cs, isDigit c = true

/-- The digits in front of the point: a zero alone, or digits that start with another one. -/
inductive SpellsWhole : List Char → Prop
  | zero : SpellsWhole ['0']
  | digits {c : Char} {cs : List Char} (hc : isDigit c = true) (nonzero : c ≠ '0')
      (h : AllDigits cs) : SpellsWhole (c :: cs)

/-- A fraction, which may be left out, with its digits. -/
inductive SpellsFraction : List Char → List Char → Prop
  | none : SpellsFraction [] []
  | point {ds : List Char} (some : ds ≠ []) (h : AllDigits ds) : SpellsFraction ('.' :: ds) ds

def IsExponentMark (c : Char) : Prop := c = 'e' ∨ c = 'E'

instance (c : Char) : Decidable (IsExponentMark c) := inferInstanceAs (Decidable (_ ∨ _))

/-- An exponent of ten, which may be left out. -/
inductive SpellsExponent : List Char → Int → Prop
  | none : SpellsExponent [] 0
  | bare {c : Char} {ds : List Char} (mark : IsExponentMark c) (some : ds ≠ [])
      (h : AllDigits ds) : SpellsExponent (c :: ds) (digitsValue ds)
  | plus {c : Char} {ds : List Char} (mark : IsExponentMark c) (some : ds ≠ [])
      (h : AllDigits ds) : SpellsExponent (c :: '+' :: ds) (digitsValue ds)
  | minus {c : Char} {ds : List Char} (mark : IsExponentMark c) (some : ds ≠ [])
      (h : AllDigits ds) : SpellsExponent (c :: '-' :: ds) (-(digitsValue ds))

def minusSign (negative : Bool) : List Char := if negative then ['-'] else []

/-- An integer of not too many digits, or a number with a fraction or an exponent. -/
inductive SpellsNumber : List Char → Value → Prop
  | int (negative : Bool) {ds : List Char} (whole : SpellsWhole ds)
      (short : ds.length ≤ maxDigits) :
      SpellsNumber (minusSign negative ++ ds)
        (.int (if negative then -(digitsValue ds) else digitsValue ds))
  | float (negative : Bool) {ds fs places es : List Char} {e : Int} (whole : SpellsWhole ds)
      (fraction : SpellsFraction fs places) (exponent : SpellsExponent es e)
      (some : fs ≠ [] ∨ es ≠ []) :
      SpellsNumber (minusSign negative ++ (ds ++ (fs ++ es)))
        (.float (.ofDecimal negative (digitsValue (ds ++ places)) (e - places.length)))

/-- Whether no number goes on with what follows it. -/
def Ends (r : List Char) : Prop :=
  ∀ c ∈ r.head?, isDigit c = false ∧ c ≠ '.' ∧ ¬IsExponentMark c

theorem ends_nil : Ends [] := by
  intro c hc
  cases hc

theorem ends_cons {c : Char} (h : isDigit c = false ∧ c ≠ '.' ∧ ¬IsExponentMark c)
    (r : List Char) : Ends (c :: r) := by
  intro d hd
  cases hd
  exact h

/-! ### Digits -/

def NoDigit (r : List Char) : Prop := ∀ c ∈ r.head?, isDigit c = false

theorem takeWhile_noDigit {r : List Char} (h : NoDigit r) : r.takeWhile isDigit = [] := by
  cases r with
  | nil => rfl
  | cons c r => exact List.takeWhile_cons_of_neg (by simp [h c rfl])

theorem dropWhile_noDigit {r : List Char} (h : NoDigit r) : r.dropWhile isDigit = r := by
  cases r with
  | nil => rfl
  | cons c r => exact List.dropWhile_cons_of_neg (by simp [h c rfl])

theorem takeWhile_digits {ds r : List Char} (h : AllDigits ds) (hr : NoDigit r) :
    (ds ++ r).takeWhile isDigit = ds := by
  rw [List.takeWhile_append_of_pos h, takeWhile_noDigit hr, List.append_nil]

theorem dropWhile_digits {ds r : List Char} (h : AllDigits ds) (hr : NoDigit r) :
    (ds ++ r).dropWhile isDigit = r := by
  rw [List.dropWhile_append_of_pos h, dropWhile_noDigit hr]

/-! ### Parts of a number -/

theorem whole?_spelled {ds r : List Char} (h : SpellsWhole ds) (hr : NoDigit r) :
    whole? (ds ++ r) = some (ds, r) := by
  cases h with
  | zero => rfl
  | @digits c cs hc nonzero h =>
    have all : AllDigits (c :: cs) := List.forall_mem_cons.2 ⟨hc, h⟩
    have taken := takeWhile_digits all hr
    rw [List.cons_append] at taken ⊢
    rw [whole?.eq_2 _ (by simp [nonzero]), taken, ← List.cons_append, dropWhile_digits all hr]

theorem fraction?_point {ds r : List Char} (some : ds ≠ []) (h : AllDigits ds) (hr : NoDigit r) :
    fraction? ('.' :: (ds ++ r)) = .some (ds, r) := by
  obtain ⟨d, ds, rfl⟩ := List.exists_cons_of_ne_nil some
  rw [fraction?, takeWhile_digits h hr, dropWhile_digits h hr]

theorem exponent?_spelled {es r : List Char} {e : Int} (h : SpellsExponent es e) (given : es ≠ [])
    (hr : NoDigit r) : exponent? (es ++ r) = some (e, r) := by
  have read {negative : Bool} {c : Char} {cs ds : List Char} (mark : IsExponentMark c)
      (some : ds ≠ []) (h : AllDigits ds) (signed : sign cs = (negative, ds ++ r)) :
      exponent? (c :: cs) =
        .some (if negative then -(digitsValue ds : Int) else digitsValue ds, r) := by
    obtain ⟨d, ds, rfl⟩ := List.exists_cons_of_ne_nil some
    have marked : (c = 'e' || c = 'E') = true := by simpa [IsExponentMark] using mark
    rw [exponent?, if_pos marked, signed]
    dsimp only
    rw [takeWhile_digits h hr, dropWhile_digits h hr]
  cases h with
  | none => exact absurd rfl given
  | @bare c ds mark some h =>
    have signed : sign (ds ++ r) = (false, ds ++ r) := by
      obtain ⟨d, ds, rfl⟩ := List.exists_cons_of_ne_nil some
      have digit : isDigit d = true := h d List.mem_cons_self
      have noMinus : d ≠ '-' := by
        rintro rfl
        exact absurd digit (by decide)
      have noPlus : d ≠ '+' := by
        rintro rfl
        exact absurd digit (by decide)
      rw [List.cons_append, sign.eq_3 _ (by simp [noMinus]) (by simp [noPlus])]
    exact read mark some h signed
  | @plus c ds mark some h =>
    have signed : sign ('+' :: (ds ++ r)) = (false, ds ++ r) := rfl
    exact read mark some h signed
  | @minus c ds mark some h =>
    have signed : sign ('-' :: (ds ++ r)) = (true, ds ++ r) := rfl
    exact read mark some h signed

theorem not_digit_mark {c : Char} (h : IsExponentMark c) : isDigit c = false := by
  rcases h with rfl | rfl <;> decide

theorem ne_point_mark {c : Char} (h : IsExponentMark c) : c ≠ '.' := by
  rcases h with rfl | rfl <;> decide

theorem Ends.noDigit {r : List Char} (h : Ends r) : NoDigit r := fun c hc => (h c hc).1

/-- Neither an exponent nor what follows the number goes on with digits or a fraction. -/
theorem SpellsExponent.apart {es r : List Char} {e : Int} (h : SpellsExponent es e)
    (hr : Ends r) : ∀ c ∈ (es ++ r).head?, isDigit c = false ∧ c ≠ '.' := by
  have marked {c : Char} (mark : IsExponentMark c) {cs : List Char} :
      ∀ d ∈ (c :: cs).head?, isDigit d = false ∧ d ≠ '.' := by
    intro d hd
    cases hd
    exact ⟨not_digit_mark mark, ne_point_mark mark⟩
  cases h with
  | none => exact fun c hc => ⟨(hr c hc).1, (hr c hc).2.1⟩
  | bare mark some h => exact marked mark
  | plus mark some h => exact marked mark
  | minus mark some h => exact marked mark

theorem fraction?_none {r : List Char} (h : ∀ c ∈ r.head?, c ≠ '.') : fraction? r = none := by
  cases r with
  | nil => rfl
  | cons c r => exact fraction?.eq_2 _ (by simp [h c rfl])

theorem exponent?_none {r : List Char} (h : Ends r) : exponent? r = none := by
  cases r with
  | nil => rfl
  | cons c r =>
    have unmarked := (h c rfl).2.2
    rw [IsExponentMark, not_or] at unmarked
    rw [exponent?, if_neg (by simp [unmarked])]

/-! ### Numbers -/

variable {rules : Rules}

theorem SpellsWhole.append_ne {ds : List Char} (h : SpellsWhole ds) (r s : List Char) :
    ds ++ r ≠ '-' :: s := by
  cases h with
  | zero => simp
  | digits hc nonzero h =>
    rintro heq
    cases heq
    exact absurd hc (by decide)

/-- An integer is read up to what follows it. -/
theorem number_int (free : rules.limitsFractions = false) (negative : Bool) {ds r : List Char}
    (whole : SpellsWhole ds) (short : ds.length ≤ maxDigits) (hr : Ends r) :
    number rules (minusSign negative ++ (ds ++ r)) =
      .ok (.int (if negative then -(digitsValue ds) else digitsValue ds), r) := by
  have read := whole?_spelled whole hr.noDigit
  have noFraction := fraction?_none fun c hc => (hr c hc).2.1
  have noExponent := exponent?_none hr
  have few : ¬maxDigits < ds.length := by omega
  unfold number
  cases negative <;>
    simp [minusSign, whole.append_ne, read, noFraction, noExponent, free, few, orRefuse, bind,
      Except.bind, pure, Except.pure]

theorem number_float (free : rules.limitsFractions = false) (negative : Bool)
    {ds fs places es r : List Char} {e : Int} (whole : SpellsWhole ds)
    (fraction : SpellsFraction fs places) (exponent : SpellsExponent es e)
    (some : fs ≠ [] ∨ es ≠ []) (hr : Ends r) :
    number rules (minusSign negative ++ (ds ++ (fs ++ (es ++ r)))) =
      .ok (.float (.ofDecimal negative (digitsValue (ds ++ places)) (e - places.length)), r) := by
  have apart := exponent.apart hr
  have noDigit : NoDigit (es ++ r) := fun c hc => (apart c hc).1
  unfold number
  cases fraction with
  | none =>
    have given : es ≠ [] := some.resolve_left fun h => h rfl
    have read := whole?_spelled whole noDigit
    have noFraction := fraction?_none fun c hc => (apart c hc).2
    have readExponent := exponent?_spelled exponent given hr.noDigit
    cases negative <;>
      simp [minusSign, whole.append_ne, read, noFraction, readExponent, free, orRefuse, bind,
        Except.bind, pure, Except.pure]
  | @point places given digits =>
    have point : NoDigit ('.' :: (places ++ (es ++ r))) := by
      intro c hc
      cases hc
      rfl
    have read := whole?_spelled whole point
    have readPlaces := fraction?_point given digits noDigit
    by_cases empty : es = []
    · subst empty
      cases exponent
      have noExponent := exponent?_none hr
      rw [List.nil_append] at read readPlaces
      cases negative <;>
        simp [minusSign, whole.append_ne, read, readPlaces, noExponent, free, orRefuse, bind,
          Except.bind, pure, Except.pure]
    · have readExponent := exponent?_spelled exponent empty hr.noDigit
      cases negative <;>
        simp [minusSign, whole.append_ne, read, readPlaces, readExponent, free, orRefuse, bind,
          Except.bind, pure, Except.pure]

theorem number_spelled (free : rules.limitsFractions = false) {cs r : List Char} {v : Value}
    (h : SpellsNumber cs v) (hr : Ends r) : number rules (cs ++ r) = .ok (v, r) := by
  cases h with
  | int negative whole short =>
    rw [List.append_assoc]
    exact number_int free negative whole short hr
  | float negative whole fraction exponent some =>
    rw [List.append_assoc, List.append_assoc, List.append_assoc]
    exact number_float free negative whole fraction exponent some hr

/-! ### Characters of a number -/

def numberChars : List Char :=
  ['+', '-', '.', '0', '1', '2', '3', '4', '5', '6', '7', '8', '9', 'E', 'e']

theorem mem_numberChars_of_isDigit {c : Char} (h : isDigit c = true) : c ∈ numberChars := by
  have low : '0'.toNat ≤ c.toNat ∧ c.toNat ≤ '9'.toNat := by
    simpa [isDigit, Char.le_def, UInt32.le_iff_toNat_le] using h
  have each : ∀ n < 58, 48 ≤ n → Char.ofNat n ∈ numberChars := by decide
  have code := each c.toNat (Nat.lt_succ_of_le low.2) low.1
  rwa [Char.ofNat_toNat] at code

theorem AllDigits.subset {ds : List Char} (h : AllDigits ds) : ds ⊆ numberChars :=
  fun c hc => mem_numberChars_of_isDigit (h c hc)

theorem SpellsWhole.subset {ds : List Char} (h : SpellsWhole ds) : ds ⊆ numberChars := by
  cases h with
  | zero => decide
  | digits hc nonzero h => exact List.cons_subset.2 ⟨mem_numberChars_of_isDigit hc, h.subset⟩

theorem SpellsFraction.subset {fs places : List Char} (h : SpellsFraction fs places) :
    fs ⊆ numberChars := by
  cases h with
  | none => exact List.nil_subset _
  | point some h => exact List.cons_subset.2 ⟨by decide, h.subset⟩

theorem SpellsExponent.subset {es : List Char} {e : Int} (h : SpellsExponent es e) :
    es ⊆ numberChars := by
  have marked {c : Char} (mark : IsExponentMark c) : c ∈ numberChars := by
    rcases mark with rfl | rfl <;> decide
  cases h with
  | none => exact List.nil_subset _
  | bare mark some h => exact List.cons_subset.2 ⟨marked mark, h.subset⟩
  | plus mark some h =>
    exact List.cons_subset.2 ⟨marked mark, List.cons_subset.2 ⟨by decide, h.subset⟩⟩
  | minus mark some h =>
    exact List.cons_subset.2 ⟨marked mark, List.cons_subset.2 ⟨by decide, h.subset⟩⟩

theorem SpellsNumber.subset {cs : List Char} {v : Value} (h : SpellsNumber cs v) :
    cs ⊆ numberChars := by
  have signed (negative : Bool) : minusSign negative ⊆ numberChars := by
    cases negative <;> decide
  cases h with
  | int negative whole short => exact List.append_subset.2 ⟨signed negative, whole.subset⟩
  | float negative whole fraction exponent some =>
    simp only [List.append_subset]
    exact ⟨signed negative, whole.subset, fraction.subset, exponent.subset⟩

theorem SpellsWhole.exists_cons {ds : List Char} (h : SpellsWhole ds) :
    ∃ d rest, ds = d :: rest ∧ isDigit d = true := by
  cases h with
  | zero => exact ⟨_, _, rfl, by decide⟩
  | digits hc nonzero h => exact ⟨_, _, rfl, hc⟩

/-- A number starts with a digit, maybe after its sign. -/
theorem SpellsNumber.exists_digit {cs : List Char} {v : Value} (h : SpellsNumber cs v) :
    ∃ negative d rest, cs = minusSign negative ++ d :: rest ∧ isDigit d = true := by
  cases h with
  | int negative whole short =>
    obtain ⟨d, rest, rfl, hd⟩ := whole.exists_cons
    exact ⟨negative, d, rest, rfl, hd⟩
  | float negative whole fraction exponent some =>
    obtain ⟨d, rest, rfl, hd⟩ := whole.exists_cons
    exact ⟨negative, d, _, rfl, hd⟩

/-- A number is not mistaken for a word. -/
theorem scalar_spelled (free : rules.limitsFractions = false) {cs r : List Char} {v : Value}
    (h : SpellsNumber cs v) (hr : Ends r) : scalar rules (cs ++ r) = .ok (v, r) := by
  have noWord : ∀ w ∈ words, dropWord? w.1.toList (cs ++ r) = none := by
    obtain ⟨negative, d, rest, rfl, hd⟩ := h.exists_digit
    have ne {c : Char} (hc : isDigit c = false) : c ≠ d := by
      rintro rfl
      rw [hc] at hd
      cases hd
    have n : 'n' ≠ d := ne (by decide)
    have t : 't' ≠ d := ne (by decide)
    have f : 'f' ≠ d := ne (by decide)
    have nan : 'N' ≠ d := ne (by decide)
    have infinity : 'I' ≠ d := ne (by decide)
    have minus : '-' ≠ d := ne (by decide)
    cases negative <;> simp [words, dropWord?, minusSign, n, t, f, nan, infinity, minus]
  rw [scalar]
  split
  · rename_i answer found
    obtain ⟨⟨w, read⟩, hw, hanswer⟩ := List.exists_of_findSome?_eq_some found
    have none := noWord _ hw
    dsimp only at none hanswer
    rw [none] at hanswer
    cases hanswer
  · exact number_spelled free h hr

end UnusedDeps.Json
