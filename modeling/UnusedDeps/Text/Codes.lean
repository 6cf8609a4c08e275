/-!
# Code points of texts

A text of a document is a sequence of code points, and one of them may be half of
a surrogate pair, which is no character. Such a half is kept as a private-use
character of the last plane. Those characters themselves, and the last code point
of all, are kept behind a mark, so that nothing is mistaken for something else.
All other texts are kept as they are. Main statement: `codes_ofCodes`, which says
that every sequence of code points is read back from the text that keeps it.
-/

namespace UnusedDeps.Text

/-- Whether a code point is half of a surrogate pair. -/
def isHalfPair (n : Nat) : Bool := 0xd800 ≤ n && n ≤ 0xdfff

/-- What is added to the code point of a half. -/
def halfPairOffset : Nat := 0x100000

/-- The character in front of one that would be mistaken. -/
def mark : Char := Char.ofNat 0x10ffff

/-- Whether a character keeps half of a pair, unless the mark stands before it. -/
def keepsHalfPair (c : Char) : Bool := 0x10d800 ≤ c.toNat && c.toNat ≤ 0x10dfff

/-- The characters that keep a code point. -/
def charsOf (n : Nat) : List Char :=
  if isHalfPair n then [Char.ofNat (halfPairOffset + n)]
  else if keepsHalfPair (Char.ofNat n) || Char.ofNat n = mark then [mark, Char.ofNat n]
  else [Char.ofNat n]

def ofCodes (ns : List Nat) : String := String.ofList (ns.flatMap charsOf)

/-- The code point that a character keeps where no mark stands before it. -/
def keptCode (c : Char) : Nat := if keepsHalfPair c then c.toNat - halfPairOffset else c.toNat

/-- The code points that characters keep. -/
def codesOf : List Char → List Nat
  | [] => []
  | [c] => [keptCode c]
  | c :: d :: r => if c = mark then d.toNat :: codesOf r else keptCode c :: codesOf (d :: r)

def codes (s : String) : List Nat := codesOf s.toList

def ofPlain (s : String) : String := ofCodes (s.toList.map Char.toNat)

/-- Whether half of a surrogate pair is among the code points of a text. -/
def hasHalfPair (s : String) : Bool := (codes s).any isHalfPair

/-- The text with U+FFFD for each of the three bytes that half of a pair would take. -/
def withoutHalfPairs (s : String) : String :=
  ofCodes ((codes s).flatMap fun n => if isHalfPair n then List.replicate 3 0xfffd else [n])

/-- The character of a code point; half of a pair is shown as U+FFFD. -/
def shownChar (n : Nat) : Char := if isHalfPair n then '\ufffd' else Char.ofNat n

def toPlain (s : String) : String := String.ofList ((codes s).map shownChar)

theorem isValidChar_of_not_isHalfPair {n : Nat} (bound : n < 0x110000)
    (whole : isHalfPair n = false) : n.isValidChar := by
  simp only [isHalfPair, Bool.and_eq_false_iff, decide_eq_false_iff_not] at whole
  rcases whole with h | h
  · exact Or.inl (by omega)
  · exact Or.inr ⟨by omega, by omega⟩

theorem toNat_ofNat_of_isValidChar {n : Nat} (valid : n.isValidChar) :
    (Char.ofNat n).toNat = n := by
  rw [Char.ofNat, dif_pos valid]
  rfl

theorem codesOf_cons {c : Char} (h : c ≠ mark) (r : List Char) :
    codesOf (c :: r) = keptCode c :: codesOf r := by
  cases r with
  | nil => rfl
  | cons d r => rw [codesOf, if_neg h]

theorem codesOf_charsOf_append {n : Nat} (bound : n < 0x110000) (r : List Char) :
    codesOf (charsOf n ++ r) = n :: codesOf r := by
  unfold charsOf
  split
  · rename_i half
    have valid : (halfPairOffset + n).isValidChar := by
      simp only [isHalfPair, Bool.and_eq_true, decide_eq_true_eq] at half
      exact Or.inr ⟨by unfold halfPairOffset; omega, by unfold halfPairOffset; omega⟩
    have code := toNat_ofNat_of_isValidChar valid
    simp only [isHalfPair, Bool.and_eq_true, decide_eq_true_eq] at half
    have other : Char.ofNat (halfPairOffset + n) ≠ mark := by
      intro h
      have h := congrArg Char.toNat h
      rw [code] at h
      have last : mark.toNat = 0x10ffff := rfl
      rw [last] at h
      unfold halfPairOffset at h
      omega
    have keeps : keepsHalfPair (Char.ofNat (halfPairOffset + n)) = true := by
      simp only [keepsHalfPair, code, Bool.and_eq_true, decide_eq_true_eq]
      unfold halfPairOffset
      omega
    rw [List.singleton_append, codesOf_cons other, keptCode, if_pos keeps, code,
      Nat.add_sub_cancel_left]
  · rename_i whole
    have code := toNat_ofNat_of_isValidChar
      (isValidChar_of_not_isHalfPair bound (Bool.eq_false_iff.2 whole))
    split
    · rw [List.cons_append, List.singleton_append, codesOf, if_pos rfl, code]
    · rename_i plain
      simp only [Bool.or_eq_true, decide_eq_true_eq, not_or] at plain
      rw [List.singleton_append, codesOf_cons plain.2, keptCode, if_neg plain.1, code]

/-- Every sequence of code points is read back from the text that keeps it. -/
theorem codes_ofCodes (ns : List Nat) (bound : ∀ n ∈ ns, n < 0x110000) :
    codes (ofCodes ns) = ns := by
  unfold codes ofCodes
  rw [String.toList_ofList]
  induction ns with
  | nil => rfl
  | cons n ns ih =>
    rw [List.flatMap_cons, codesOf_charsOf_append (bound n List.mem_cons_self),
      ih fun m h => bound m (List.mem_cons_of_mem n h)]

end UnusedDeps.Text
