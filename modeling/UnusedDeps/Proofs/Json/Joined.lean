import Mathlib.Data.List.Chain
import UnusedDeps.Proofs.Json.RoundTrip

/-!
# Texts that are read back joined

Two halves of a surrogate pair that stand side by side are written as one escape
after the other, just as the code point that they make together. What is read
back is therefore the text in which such halves are joined. That text is
faithful, and nothing else about a text is lost. Main statements:
`writtenText_joined` and `isFaithful_joined`.
-/

namespace UnusedDeps

namespace Text

/-- The code point of two halves of a surrogate pair. -/
def pairCode (first second : Nat) : Nat := 0x10000 + (first - 0xd800) * 0x400 + (second - 0xdc00)

/-- Code points with every two halves that fit together joined, from left to right. -/
def joinHalves : List Nat → List Nat
  | m :: n :: r =>
    if opensPair m && closesPair n then pairCode m n :: joinHalves r else m :: joinHalves (n :: r)
  | r => r

def joined (s : String) : String := ofCodes (joinHalves (codes s))

section

variable {m n : Nat} (opens : opensPair m = true) (closes : closesPair n = true)

include opens closes

theorem pairCode_bounds : 0x10000 ≤ pairCode m n ∧ pairCode m n < 0x110000 := by
  simp only [opensPair, closesPair, Bool.and_eq_true, decide_eq_true_eq] at opens closes
  unfold pairCode
  omega

theorem writtenCode_pairCode : Json.writtenCode .ascii (pairCode m n) =
    Json.writtenCode .ascii m ++ Json.writtenCode .ascii n := by
  have bounds := pairCode_bounds opens closes
  simp only [opensPair, closesPair, Bool.and_eq_true, decide_eq_true_eq] at opens closes
  have high {k : Nat} (h : 0x7f ≤ k) : Json.writtenCode .ascii k = Json.codeEscape k := by
    have plain : (decide (0x20 ≤ k) && (Json.Charset.ascii == .unicode || decide (k < 0x7f))) =
        false := by
      simp only [Bool.and_eq_false_iff, Bool.or_eq_false_iff, decide_eq_false_iff_not]
      exact .inr ⟨rfl, by omega⟩
    unfold Json.writtenCode
    rw [if_neg (by omega), if_neg (by omega), if_neg (by omega), if_neg (by omega),
      if_neg (by omega), if_neg (by omega), if_neg (by omega), plain]
    rfl
  have first : 0xd800 + (pairCode m n - 0x10000) / 0x400 = m := by
    unfold pairCode
    omega
  have second : 0xdc00 + (pairCode m n - 0x10000) % 0x400 = n := by
    unfold pairCode
    omega
  rw [high (by omega), high (by omega), high (by omega), Json.codeEscape, if_neg (by omega)]
  show Json.unitEscape _ ++ Json.unitEscape _ = _
  rw [first, second, Json.codeEscape, if_pos (by omega), Json.codeEscape, if_pos (by omega)]

end

/-! ### Code points -/

theorem joinHalves_cons_cons (m n : Nat) (r : List Nat) : joinHalves (m :: n :: r) =
    if opensPair m && closesPair n then pairCode m n :: joinHalves r
    else m :: joinHalves (n :: r) := by
  rw [joinHalves]

theorem flatMap_writtenCode_joinHalves (ns : List Nat) :
    (joinHalves ns).flatMap (Json.writtenCode .ascii) = ns.flatMap (Json.writtenCode .ascii) := by
  fun_induction joinHalves ns with
  | case1 m n r fits ih =>
    rw [Bool.and_eq_true] at fits
    rw [List.flatMap_cons, List.flatMap_cons, List.flatMap_cons, ih,
      writtenCode_pairCode fits.1 fits.2, List.append_assoc]
  | case2 m n r _ ih => rw [List.flatMap_cons, ih, ← List.flatMap_cons]
  | case3 => rfl

theorem joinHalves_lt {ns : List Nat} (bound : ∀ n ∈ ns, n < 0x110000) :
    ∀ n ∈ joinHalves ns, n < 0x110000 := by
  fun_induction joinHalves ns with
  | case1 m n r fits ih =>
    rw [Bool.and_eq_true] at fits
    rw [List.forall_mem_cons, List.forall_mem_cons] at bound
    rw [List.forall_mem_cons]
    exact ⟨(pairCode_bounds fits.1 fits.2).2, ih bound.2.2⟩
  | case2 m n r _ ih =>
    rw [List.forall_mem_cons] at bound
    rw [List.forall_mem_cons]
    exact ⟨bound.1, ih bound.2⟩
  | case3 => exact bound

/-- What joined code points start with closes a pair only when the code points do. -/
theorem closesPair_head_joinHalves {n k : Nat} {r : List Nat}
    (h : (joinHalves (n :: r)).head? = some k) (closes : closesPair k = true) :
    closesPair n = true := by
  cases r with
  | nil =>
    cases h
    exact closes
  | cons m r =>
    rw [joinHalves_cons_cons] at h
    split at h
    · rename_i fits
      rw [Bool.and_eq_true] at fits
      have bounds := pairCode_bounds fits.1 fits.2
      have joined : pairCode n m = k := Option.some.inj h
      simp only [closesPair, Bool.and_eq_true, decide_eq_true_eq] at closes
      omega
    · exact Option.some.inj h ▸ closes

theorem isChain_joinHalves (ns : List Nat) :
    (joinHalves ns).IsChain fun m n => ¬(opensPair m = true ∧ closesPair n = true) := by
  fun_induction joinHalves ns with
  | case1 m n r fits ih =>
    rw [Bool.and_eq_true] at fits
    refine List.isChain_cons.2 ⟨fun k _ => ?_, ih⟩
    -- A joined pair is beyond the basic plane, so it opens nothing.
    rintro ⟨opens, -⟩
    have bounds := pairCode_bounds fits.1 fits.2
    simp only [opensPair, Bool.and_eq_true, decide_eq_true_eq] at opens
    omega
  | case2 m n r apart ih =>
    refine List.isChain_cons.2 ⟨fun k hk => ?_, ih⟩
    rintro ⟨opens, closes⟩
    rw [opens, closesPair_head_joinHalves hk closes] at apart
    exact apart rfl
  | case3 r short =>
    cases r with
    | nil => exact .nil
    | cons m r =>
      cases r with
      | nil => exact .singleton m
      | cons n r => exact absurd rfl (short m n r)

theorem joinHalves_of_isChain {ns : List Nat}
    (h : ns.IsChain fun m n => ¬(opensPair m = true ∧ closesPair n = true)) :
    joinHalves ns = ns := by
  fun_induction joinHalves ns with
  | case1 m n r fits ih =>
    rw [Bool.and_eq_true] at fits
    exact absurd fits (List.isChain_cons_cons.1 h).1
  | case2 m n r _ ih => rw [ih (List.isChain_cons_cons.1 h).2]
  | case3 => rfl

/-! ### Texts -/

theorem codesOf_lt (cs : List Char) : ∀ n ∈ codesOf cs, n < 0x110000 := by
  have kept (c : Char) : keptCode c < 0x110000 := by
    have bound := (isCode_of_char c).1
    unfold keptCode
    split
    · omega
    · exact bound
  fun_induction codesOf cs with
  | case1 => exact List.forall_mem_nil _
  | case2 c => simpa using kept c
  | case3 d r ih => exact List.forall_mem_cons.2 ⟨(isCode_of_char d).1, ih⟩
  | case4 c d r _ ih => exact List.forall_mem_cons.2 ⟨kept c, ih⟩

theorem codes_joined (s : String) : codes (joined s) = joinHalves (codes s) :=
  codes_ofCodes _ (joinHalves_lt (codesOf_lt s.toList))

theorem isFaithful_joined (s : String) : IsFaithful (joined s) where
  coded := ⟨_, joinHalves_lt (codesOf_lt s.toList), rfl⟩
  apart := codes_joined s ▸ isChain_joinHalves (codes s)

/-- A text that comes back from JSON has nothing to join. -/
theorem joined_of_isFaithful {s : String} (h : IsFaithful s) : joined s = s := by
  obtain ⟨ns, bound, rfl⟩ := h.coded
  have codes : codes (ofCodes ns) = ns := codes_ofCodes ns bound
  rw [joined, joinHalves_of_isChain h.apart, codes]

end Text

namespace Json

theorem writtenText_joined (s : String) :
    writtenText .ascii (Text.joined s) = writtenText .ascii s := by
  rw [writtenText, writtenText, Text.codes_joined, Text.flatMap_writtenCode_joinHalves]

theorem writtenItems_congr {charset : Charset} {vs ws : List Value}
    (h : List.Forall₂ (fun v w => written charset v = written charset w) vs ws) :
    writtenItems charset vs = writtenItems charset ws := by
  induction h with
  | nil => rfl
  | cons head tail ih =>
    cases tail with
    | nil => rw [writtenItems, writtenItems, head]
    | cons head' tail' =>
      rw [writtenItems.eq_3 _ _ (_ :: _) (by simp), writtenItems.eq_3 _ _ (_ :: _) (by simp), head,
        ih]

end Json

end UnusedDeps
