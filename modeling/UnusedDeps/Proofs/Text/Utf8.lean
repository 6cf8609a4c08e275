import UnusedDeps.Proofs.Order
import UnusedDeps.Text.Utf8

/-!
# Characters that come back from their bytes

The bytes of a character are read back as that character and are not mistaken for
the start of another one, whatever bytes follow. A sequence of characters is
therefore read back from its UTF-8. The text that is read keeps the code points of
these characters, some of them behind a mark. Main statements:
`charsOrFaults_utf8` and `ofUtf8?_chars`.
-/

namespace UnusedDeps.Text

/-! ### The bytes of one character -/

theorem followBytes_cons {lo hi : Nat} {b : UInt8} (h : lo ≤ b.toNat ∧ b.toNat ≤ hi)
    (bits taken : Nat) (ranges : List (Nat × Nat)) (r : List UInt8) :
    followBytes bits taken ((lo, hi) :: ranges) (b :: r) =
      followBytes (bits * 64 + b.toNat % 64) (taken + 1) ranges r := by
  rw [followBytes, if_pos h]

theorem toNat_byte {n : Nat} (h : n < 256) : (UInt8.ofNat n).toNat = n := by
  rw [UInt8.toNat_ofNat']
  omega

/-- How a character of two or more bytes is read. -/
theorem frontChar_of_leadByte? {b : UInt8} {bits code taken : Nat} {ranges : List (Nat × Nat)}
    {r : List UInt8} (lead : leadByte? b.toNat = some (bits, ranges))
    (follow : followBytes bits 0 ranges r = (some code, taken)) :
    frontChar b r = (some (Char.ofNat code), taken) := by
  rw [frontChar, lead]
  dsimp only
  rw [follow]
  rfl

theorem frontChar_one {n : Nat} (h : n < 0x80) (r : List UInt8) :
    frontChar (UInt8.ofNat n) r = (some (Char.ofNat n), 0) := by
  have byte : (UInt8.ofNat n).toNat = n := toNat_byte (by omega)
  have lead : leadByte? (UInt8.ofNat n).toNat = some (n, []) := by
    rw [byte, leadByte?, if_pos h]
  exact frontChar_of_leadByte? lead rfl

theorem frontChar_two {n : Nat} (low : 0x80 ≤ n) (high : n < 0x800) (r : List UInt8) :
    frontChar (UInt8.ofNat (n / 64 % 32 + 192)) (UInt8.ofNat (n % 64 + 128) :: r) =
      (some (Char.ofNat n), 1) := by
  have first := toNat_byte (show n / 64 % 32 + 192 < 256 by omega)
  have second := toNat_byte (show n % 64 + 128 < 256 by omega)
  have bits : n / 64 % 32 + 192 - 0xc0 = n / 64 := by omega
  have code : n / 64 * 64 + (n % 64 + 128) % 64 = n := by omega
  have lead : leadByte? (UInt8.ofNat (n / 64 % 32 + 192)).toNat =
      some (n / 64, [(0x80, 0xbf)]) := by
    rw [first, leadByte?, if_neg (by omega), if_pos (by omega), bits]
  refine frontChar_of_leadByte? lead ?_
  rw [followBytes_cons (by omega), followBytes, second, code]

/-- The ranges of the two bytes after a first byte that stands for a multiple of `0x1000`. -/
theorem leadByte?_three {n : Nat} (low : 0x800 ≤ n) (high : n < 0x10000)
    (whole : n < 0xd800 ∨ 0xdfff < n) : ∃ lo hi, leadByte? (n / 4096 % 16 + 224) =
      some (n / 4096, [(lo, hi), (0x80, 0xbf)]) ∧
        lo ≤ n / 64 % 64 + 128 ∧ n / 64 % 64 + 128 ≤ hi := by
  have bits : n / 4096 % 16 + 224 - 0xe0 = n / 4096 := by omega
  by_cases first : n / 4096 = 0
  · refine ⟨0xa0, 0xbf, ?_, by omega, by omega⟩
    rw [first]
    rfl
  by_cases last : n / 4096 = 0xd
  · refine ⟨0x80, 0x9f, ?_, by omega, by omega⟩
    rw [last]
    rfl
  · refine ⟨0x80, 0xbf, ?_, by omega, by omega⟩
    rw [leadByte?, if_neg (by omega), if_neg (by omega), if_neg (by omega), if_neg (by omega),
      if_pos (by omega), bits]

theorem frontChar_three {n : Nat} (low : 0x800 ≤ n) (high : n < 0x10000)
    (whole : n < 0xd800 ∨ 0xdfff < n) (r : List UInt8) :
    frontChar (UInt8.ofNat (n / 4096 % 16 + 224))
      (UInt8.ofNat (n / 64 % 64 + 128) :: UInt8.ofNat (n % 64 + 128) :: r) =
        (some (Char.ofNat n), 2) := by
  have first := toNat_byte (show n / 4096 % 16 + 224 < 256 by omega)
  have second := toNat_byte (show n / 64 % 64 + 128 < 256 by omega)
  have third := toNat_byte (show n % 64 + 128 < 256 by omega)
  obtain ⟨lo, hi, lead, hlo, hhi⟩ := leadByte?_three low high whole
  rw [← first] at lead
  have code : (n / 4096 * 64 + (n / 64 % 64 + 128) % 64) * 64 + (n % 64 + 128) % 64 = n := by
    omega
  refine frontChar_of_leadByte? lead ?_
  rw [followBytes_cons (by omega), followBytes_cons (by omega), followBytes, second, third, code]

/-- The ranges of the three bytes after a first byte that stands for a multiple of `0x40000`. -/
theorem leadByte?_four {n : Nat} (low : 0x10000 ≤ n) (high : n < 0x110000) :
    ∃ lo hi, leadByte? (n / 262144 % 8 + 240) =
      some (n / 262144, [(lo, hi), (0x80, 0xbf), (0x80, 0xbf)]) ∧
        lo ≤ n / 4096 % 64 + 128 ∧ n / 4096 % 64 + 128 ≤ hi := by
  have bits : n / 262144 % 8 + 240 - 0xf0 = n / 262144 := by omega
  by_cases first : n / 262144 = 0
  · refine ⟨0x90, 0xbf, ?_, by omega, by omega⟩
    rw [first]
    rfl
  by_cases last : n / 262144 = 4
  · refine ⟨0x80, 0x8f, ?_, by omega, by omega⟩
    rw [last]
    rfl
  · refine ⟨0x80, 0xbf, ?_, by omega, by omega⟩
    rw [leadByte?, if_neg (by omega), if_neg (by omega), if_neg (by omega), if_neg (by omega),
      if_neg (by omega), if_neg (by omega), if_pos (by omega), bits]

theorem frontChar_four {n : Nat} (low : 0x10000 ≤ n) (high : n < 0x110000) (r : List UInt8) :
    frontChar (UInt8.ofNat (n / 262144 % 8 + 240))
      (UInt8.ofNat (n / 4096 % 64 + 128) :: UInt8.ofNat (n / 64 % 64 + 128) ::
        UInt8.ofNat (n % 64 + 128) :: r) = (some (Char.ofNat n), 3) := by
  have first := toNat_byte (show n / 262144 % 8 + 240 < 256 by omega)
  have second := toNat_byte (show n / 4096 % 64 + 128 < 256 by omega)
  have third := toNat_byte (show n / 64 % 64 + 128 < 256 by omega)
  have fourth := toNat_byte (show n % 64 + 128 < 256 by omega)
  obtain ⟨lo, hi, lead, hlo, hhi⟩ := leadByte?_four low high
  rw [← first] at lead
  have code : ((n / 262144 * 64 + (n / 4096 % 64 + 128) % 64) * 64 +
      (n / 64 % 64 + 128) % 64) * 64 + (n % 64 + 128) % 64 = n := by omega
  refine frontChar_of_leadByte? lead ?_
  rw [followBytes_cons (by omega), followBytes_cons (by omega), followBytes_cons (by omega),
    followBytes, second, third, fourth, code]

/-- The bytes of a character are read as that character. -/
theorem frontChar_utf8EncodeChar (c : Char) : ∃ b bs, String.utf8EncodeChar c = b :: bs ∧
    ∀ r, frontChar b (bs ++ r) = (some c, bs.length) := by
  have valid : c.val.toNat < 0xd800 ∨ 0xdfff < c.val.toNat ∧ c.val.toNat < 0x110000 := c.valid
  have self : Char.ofNat c.val.toNat = c := Char.ofNat_toNat c
  unfold String.utf8EncodeChar
  dsimp only
  split
  · refine ⟨_, [], rfl, fun r => ?_⟩
    rw [List.nil_append, frontChar_one (by omega), self]
    rfl
  split
  · refine ⟨_, [_], rfl, fun r => ?_⟩
    rw [List.singleton_append, frontChar_two (by omega) (by omega), self]
    rfl
  split
  · refine ⟨_, [_, _], rfl, fun r => ?_⟩
    have read := frontChar_three (show 0x800 ≤ c.val.toNat by omega) (by omega) (by omega) r
    rw [self] at read
    exact read
  · refine ⟨_, [_, _, _], rfl, fun r => ?_⟩
    have read := frontChar_four (show 0x10000 ≤ c.val.toNat by omega) (by omega) r
    rw [self] at read
    exact read

/-! ### The bytes of several characters -/

theorem mapM_eq_some_map {α β : Type} {f : α → Option β} {g : α → β} {xs : List α}
    (h : ∀ a ∈ xs, f a = some (g a)) : xs.mapM f = some (xs.map g) := by
  induction xs with
  | nil => rfl
  | cons a xs ih =>
    rw [List.forall_mem_cons] at h
    rw [List.mapM_cons, h.1, ih h.2]
    rfl

theorem charsOrFaults_skip (bs r : List UInt8) :
    charsOrFaults bs.length (bs ++ r) = charsOrFaults 0 r := by
  induction bs with
  | nil => rfl
  | cons b bs ih => exact ih

theorem charsOrFaults_utf8 (cs : List Char) :
    charsOrFaults 0 (cs.flatMap String.utf8EncodeChar) = cs.map some := by
  induction cs with
  | nil => rfl
  | cons c cs ih =>
    obtain ⟨b, bs, hbytes, hfront⟩ := frontChar_utf8EncodeChar c
    rw [List.flatMap_cons, hbytes, List.cons_append, charsOrFaults, hfront]
    dsimp only
    rw [charsOrFaults_skip, ih, List.map_cons]

/-- The characters that keep the code points of some characters. -/
def kept (cs : List Char) : List Char := cs.flatMap fun c => charsOf c.toNat

theorem toList_ofPlain (cs : List Char) : (ofPlain (String.ofList cs)).toList = kept cs := by
  rw [ofPlain, ofCodes, String.toList_ofList, String.toList_ofList, List.flatMap_map, kept]

/-- Characters are read back from their bytes. -/
theorem ofUtf8?_chars (cs : List Char) :
    ofUtf8? (cs.flatMap String.utf8EncodeChar) = some (String.ofList (kept cs)) := by
  have all : (cs.map some).mapM id = some ((cs.map some).map (·.getD default)) :=
    mapM_eq_some_map fun c hc => by
      obtain ⟨d, -, rfl⟩ := List.mem_map.1 hc
      rfl
  have chars : (cs.map some).map (·.getD default) = cs := by
    rw [List.map_map]
    exact List.map_id' cs
  rw [ofUtf8?, charsOrFaults_utf8, all, chars, Option.map_some, ← toList_ofPlain,
    String.ofList_toList]

/-! ### Characters that keep themselves -/

@[simp] theorem kept_nil : kept [] = [] := rfl

@[simp] theorem kept_append (cs ds : List Char) : kept (cs ++ ds) = kept cs ++ kept ds :=
  List.flatMap_append

/-- Whether a character stands before the planes of private use. -/
def isLow (c : Char) : Bool := c.toNat < 0x100000

theorem ne_mark_of_isLow {c : Char} (h : isLow c = true) : c ≠ mark := by
  rintro rfl
  exact absurd h (by decide)

theorem charsOf_of_isLow {c : Char} (h : isLow c = true) : charsOf c.toNat = [c] := by
  have low : c.toNat < 0x100000 := of_decide_eq_true h
  have whole : keepsHalfPair c = false := by
    simp only [keepsHalfPair, Bool.and_eq_false_iff, decide_eq_false_iff_not]
    omega
  exact charsOf_toNat whole (ne_mark_of_isLow h)

theorem kept_cons_of_isLow {c : Char} (h : isLow c = true) (cs : List Char) :
    kept (c :: cs) = c :: kept cs := by
  rw [kept, List.flatMap_cons, charsOf_of_isLow h]
  rfl

theorem kept_of_isLow {cs : List Char} (h : ∀ c ∈ cs, isLow c = true) : kept cs = cs := by
  induction cs with
  | nil => rfl
  | cons c cs ih =>
    rw [List.forall_mem_cons] at h
    rw [kept_cons_of_isLow h.1, ih h.2]

section Joined

variable {sep : Char} (low : isLow sep = true)

include low

theorem kept_intercalate_cons_cons (p q : List Char) (ps : List (List Char)) :
    kept (List.intercalate [sep] (p :: q :: ps)) =
      kept p ++ sep :: kept (List.intercalate [sep] (q :: ps)) := by
  rw [List.intercalate_cons_cons, List.append_assoc, List.singleton_append, kept_append,
    kept_cons_of_isLow low]

theorem kept_intercalate (ps : List (List Char)) :
    kept (List.intercalate [sep] ps) = List.intercalate [sep] (ps.map kept) := by
  induction ps with
  | nil => rfl
  | cons p ps ih =>
    cases ps with
    | nil =>
      rw [List.intercalate_singleton, List.map_cons, List.map_nil, List.intercalate_singleton]
    | cons q ps =>
      rw [kept_intercalate_cons_cons low, ih, List.map_cons, List.map_cons, List.map_cons,
        List.intercalate_cons_cons, List.append_assoc, List.singleton_append]

end Joined

theorem mem_charsOf (c : Char) : c ∈ charsOf c.toNat := by
  unfold charsOf
  rw [(isCode_of_char c).2, Char.ofNat_toNat]
  split
  · rename_i half
    cases half
  split <;> simp

theorem mem_kept {cs : List Char} {c : Char} (hc : c ∈ cs) : c ∈ kept cs :=
  List.mem_flatMap.2 ⟨c, hc, mem_charsOf c⟩

/-- What is kept holds no low character but those that it keeps. -/
theorem mem_of_mem_kept {cs : List Char} {c : Char} (h : isLow c = true) (hc : c ∈ kept cs) :
    c ∈ cs := by
  obtain ⟨d, hd, hc⟩ := List.mem_flatMap.1 hc
  unfold charsOf at hc
  rw [(isCode_of_char d).2, Char.ofNat_toNat] at hc
  split at hc
  · rename_i half
    cases half
  split at hc
  · simp only [List.mem_cons, List.not_mem_nil, or_false] at hc
    rcases hc with hc | hc
    · exact absurd hc (ne_mark_of_isLow h)
    · exact hc ▸ hd
  · exact List.mem_singleton.1 hc ▸ hd

end UnusedDeps.Text
