import UnusedDeps.Files.Tree
import UnusedDeps.Proofs.Json.Text
import UnusedDeps.Proofs.Text.Lines

/-!
# Texts of printable ASCII characters

A printable ASCII character keeps its own code point and has one byte. A text of
such characters is therefore its own code points, comes back from its bytes, and
is the name of a file as it stands. Main statements: `ofUtf8?_utf8`,
`hostName_of_isShown` and `IsShown.isFaithful`.
-/

namespace UnusedDeps.Text

/-- Whether a character is a printable ASCII character. -/
def isShownChar (c : Char) : Bool := 0x20 ≤ c.toNat && c.toNat < 0x7f

/-- Whether a text is made of printable ASCII characters. -/
def IsShown (s : String) : Prop := ∀ c ∈ s.toList, isShownChar c = true

instance (s : String) : Decidable (IsShown s) := List.decidableBAll _ _

theorem isShownChar_iff {c : Char} : isShownChar c = true ↔ 0x20 ≤ c.toNat ∧ c.toNat < 0x7f := by
  rw [isShownChar, Bool.and_eq_true, decide_eq_true_eq, decide_eq_true_eq]

/-! ### Code points -/

theorem keptCode_of_shown {c : Char} (h : isShownChar c = true) :
    c ≠ mark ∧ keepsHalfPair c = false ∧ keptCode c = c.toNat := by
  rw [isShownChar_iff] at h
  have plain : keepsHalfPair c = false := by
    simp only [keepsHalfPair, Bool.and_eq_false_iff, decide_eq_false_iff_not]
    omega
  refine ⟨?_, plain, by rw [keptCode, plain]; rfl⟩
  rintro rfl
  have last : mark.toNat = 0x10ffff := rfl
  omega

theorem codesOf_of_shown {cs : List Char} (h : ∀ c ∈ cs, isShownChar c = true) :
    codesOf cs = cs.map Char.toNat := by
  induction cs with
  | nil => rfl
  | cons c cs ih =>
    rw [List.forall_mem_cons] at h
    obtain ⟨other, -, code⟩ := keptCode_of_shown h.1
    rw [codesOf_cons other, code, ih h.2, List.map_cons]

theorem IsShown.codes {s : String} (h : IsShown s) : codes s = s.toList.map Char.toNat :=
  codesOf_of_shown h

theorem ofCodes_of_shown {cs : List Char} (h : ∀ c ∈ cs, isShownChar c = true) :
    ofCodes (cs.map Char.toNat) = String.ofList cs := by
  have chars : (cs.map Char.toNat).flatMap charsOf = cs.flatMap fun c => [c] := by
    rw [List.flatMap_map]
    refine List.flatMap_congr fun c hc => ?_
    obtain ⟨other, plain, -⟩ := keptCode_of_shown (h c hc)
    exact charsOf_toNat plain other
  rw [ofCodes, chars, List.flatMap_singleton']

theorem IsShown.ofPlain {s : String} (h : IsShown s) : ofPlain s = s := by
  rw [Text.ofPlain, ofCodes_of_shown h, String.ofList_toList]

theorem IsShown.toPlain {s : String} (h : IsShown s) : toPlain s = s := by
  have each (c : Char) : shownChar c.toNat = c := by
    rw [shownChar, (isCode_of_char c).2, if_neg (by simp), Char.ofNat_toNat]
  rw [Text.toPlain, h.codes, List.map_map, Function.comp_def]
  simp only [each, List.map_id', String.ofList_toList]

/-- A text of characters comes back from JSON, whichever they are. -/
theorem isFaithful_ofPlain (s : String) : IsFaithful (Text.ofPlain s) := by
  have code : ∀ n ∈ s.toList.map Char.toNat, n < 0x110000 := by
    intro n hn
    obtain ⟨c, -, rfl⟩ := List.mem_map.1 hn
    exact (isCode_of_char c).1
  refine ⟨⟨_, code, rfl⟩, ?_⟩
  rw [Text.ofPlain, codes_ofCodes _ code]
  refine List.Pairwise.isChain (List.pairwise_map.2 (List.pairwise_of_forall_mem_list ?_))
  rintro c - d - ⟨opens, -⟩
  have whole := (isCode_of_char c).2
  simp only [opensPair, isHalfPair, Bool.and_eq_true, Bool.and_eq_false_iff, decide_eq_true_eq,
    decide_eq_false_iff_not] at opens whole
  omega

theorem IsShown.isFaithful {s : String} (h : IsShown s) : IsFaithful s :=
  h.ofPlain ▸ isFaithful_ofPlain s

/-! ### Bytes -/

/-- The byte of a character that has one. -/
def byteOf (c : Char) : UInt8 := c.toNat.toUInt8

theorem toNat_byteOf {c : Char} (h : isShownChar c = true) : (byteOf c).toNat = c.toNat := by
  rw [isShownChar_iff] at h
  show c.toNat % 256 = c.toNat
  omega

theorem utf8EncodeChar_of_shown {c : Char} (h : isShownChar c = true) :
    String.utf8EncodeChar c = [byteOf c] := by
  rw [isShownChar_iff] at h
  have low : c.val.toNat ≤ 127 := by
    have : c.val.toNat = c.toNat := rfl
    omega
  unfold String.utf8EncodeChar
  simp only [low, if_true]
  rfl

theorem frontChar_byteOf {c : Char} (h : isShownChar c = true) (r : List UInt8) :
    frontChar (byteOf c) r = (some c, 0) := by
  have low := (isShownChar_iff.1 h).2
  rw [frontChar, toNat_byteOf h, leadByte?, if_pos (by omega)]
  simp [followBytes]

theorem isLow_of_shown {c : Char} (h : isShownChar c = true) : isLow c = true := by
  have low := (isShownChar_iff.1 h).2
  rw [isLow, decide_eq_true_eq]
  omega

/-- A text of printable ASCII characters comes back from its bytes. -/
theorem ofUtf8?_utf8 {s : String} (h : IsShown s) : ofUtf8? (Text.utf8 s) = some s := by
  have self : kept s.toList = s.toList := kept_of_isLow fun c hc => isLow_of_shown (h c hc)
  rw [Text.utf8, h.toPlain, ofUtf8?_chars, self, String.ofList_toList]

theorem foldNewlines_of_shown {cs : List Char} (h : ∀ c ∈ cs, isShownChar c = true) :
    foldNewlines cs = cs :=
  foldNewlines_of_notMem fun hc => absurd (h _ hc) (by decide)

/-- A file that holds a text of printable ASCII characters is read as that text. -/
theorem IsShown.textOf? {s : String} (h : IsShown s) :
    FileTree.textOf? (FileTree.bytesOf s) = some s := by
  rw [FileTree.textOf?, FileTree.bytesOf, List.toList_data_toByteArray, ofUtf8?_utf8 h,
    Option.map_some, foldNewlines_of_shown h, String.ofList_toList]

/-! ### Names of files -/

theorem IsShown.hostBytes? {s : String} (h : IsShown s) :
    hostBytes? s = some (s.toList.map byteOf) := by
  have each : ∀ n ∈ s.toList.map Char.toNat, nameBytes? n = some [byteOf (Char.ofNat n)] := by
    intro n hn
    obtain ⟨c, hc, rfl⟩ := List.mem_map.1 hn
    rw [nameBytes?, (isCode_of_char c).2, Char.ofNat_toNat, utf8EncodeChar_of_shown (h c hc)]
    rfl
  rw [Text.hostBytes?, h.codes, mapM_eq_some_map each, Option.map_some, ← List.flatMap_def,
    List.flatMap_map]
  simp only [Char.ofNat_toNat]
  exact congrArg some (List.flatMap_pure_eq_map ..)

theorem codesOfHost_of_shown {cs : List Char} (h : ∀ c ∈ cs, isShownChar c = true) :
    codesOfHost 0 (cs.map byteOf) = cs.map Char.toNat := by
  induction cs with
  | nil => rfl
  | cons c cs ih =>
    rw [List.forall_mem_cons] at h
    rw [List.map_cons, codesOfHost, frontChar_byteOf h.1]
    exact congrArg (c.toNat :: ·) (ih h.2)

theorem IsShown.hostName {s : String} (h : IsShown s) : hostName s = s := by
  rw [Text.hostName, h.hostBytes?, Option.map_some, Option.getD_some, Function.comp_apply, hostText,
    toBytes_ofBytes, codesOfHost_of_shown h, ofCodes_of_shown h, String.ofList_toList]

theorem IsShown.byteCount {s : String} (h : IsShown s) : FileTree.byteCount s = s.length := by
  rw [FileTree.byteCount, h.hostBytes?, Option.getD_some, List.length_map, String.length_toList]

theorem IsShown.nameFault? {s : String} (h : IsShown s) : Path.nameFault? s = none := by
  have zero : s.toList.contains '\x00' = false := by
    rw [List.contains_eq_mem, decide_eq_false_iff_not]
    exact fun hc => absurd (h _ hc) (by decide)
  rw [Path.nameFault?, h.hostBytes?, zero]
  rfl

end UnusedDeps.Text
