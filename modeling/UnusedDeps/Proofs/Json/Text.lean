import UnusedDeps.Json.Printer
import UnusedDeps.Json.Reader
import UnusedDeps.Proofs.Order

/-!
# Texts that come back from JSON

A text is written between quotes with escapes and read back code point by code
point. An escape names half of a surrogate pair, so two halves that are separate
code points and fit together are read as one; every other text comes back as it
was. Main statement: `textAfter?_written`.
-/

namespace UnusedDeps

namespace Text

/-- Whether a code point is the first half of a surrogate pair. -/
def opensPair (n : Nat) : Bool := 0xd800 ≤ n && n < 0xdc00

/-- Whether a code point is the second half of a surrogate pair. -/
def closesPair (n : Nat) : Bool := 0xdc00 ≤ n && n < 0xe000

/-- Whether a text keeps code points among which no two halves of a pair fit together. -/
structure IsFaithful (s : String) : Prop where
  coded : IsCoded s
  apart : (codes s).IsChain fun m n => ¬(opensPair m = true ∧ closesPair n = true)

end Text

namespace Json

/-- Whether a text is kept when it is written and read back. Only a writer that escapes halves of
surrogate pairs needs those that fit together to be apart. -/
structure Keeps (charset : Charset) (s : String) : Prop where
  coded : Text.IsCoded s
  apart : charset = .ascii →
    (Text.codes s).IsChain fun m n => ¬(Text.opensPair m = true ∧ Text.closesPair n = true)

theorem keeps_of_isFaithful {s : String} (h : Text.IsFaithful s) (charset : Charset) :
    Keeps charset s :=
  ⟨h.coded, fun _ => h.apart⟩

theorem keeps_unicode {s : String} (h : Text.IsCoded s) : Keeps .unicode s := ⟨h, nofun⟩

/-! ### Units -/

theorem hexValue?_digitChar {d : Nat} (h : d < 16) : hexValue? d.digitChar = some d := by
  have each : ∀ d < 16, hexValue? d.digitChar = some d := by decide
  exact each d h

theorem hex_four {n : Nat} (h : n < 0x10000) : Text.hex 4 n =
    [(n / 4096).digitChar, (n / 256 % 16).digitChar, (n / 16 % 16).digitChar,
      (n % 16).digitChar] := by
  have zero : '0' = (0 : Nat).digitChar := rfl
  unfold Text.hex
  by_cases h1 : n < 16
  · rw [Nat.toDigits_of_lt_base h1, show n / 4096 = 0 by omega, show n / 256 % 16 = 0 by omega,
      show n / 16 % 16 = 0 by omega, show n % 16 = n by omega]
    rfl
  rw [Nat.toDigits_of_base_le (by decide) (by omega)]
  by_cases h2 : n / 16 < 16
  · rw [Nat.toDigits_of_lt_base h2, show n / 4096 = 0 by omega, show n / 256 % 16 = 0 by omega,
      show n / 16 % 16 = n / 16 by omega]
    rfl
  rw [Nat.toDigits_of_base_le (by decide) (by omega)]
  by_cases h3 : n / 16 / 16 < 16
  · rw [Nat.toDigits_of_lt_base h3, show n / 4096 = 0 by omega,
      show n / 256 % 16 = n / 16 / 16 by omega]
    rfl
  rw [Nat.toDigits_of_base_le (by decide) (by omega),
    Nat.toDigits_of_lt_base (show n / 16 / 16 / 16 < 16 by omega),
    show n / 4096 = n / 16 / 16 / 16 by omega, show n / 256 % 16 = n / 16 / 16 % 16 by omega]
  rfl

theorem unit?_hex {n : Nat} (h : n < 0x10000) (r : List Char) :
    unit? (Text.hex 4 n ++ r) = some (n, r) := by
  have value : ((n / 4096 * 16 + n / 256 % 16) * 16 + n / 16 % 16) * 16 + n % 16 = n := by omega
  rw [hex_four h]
  simp only [List.cons_append, List.nil_append, unit?]
  rw [hexValue?_digitChar (show n / 4096 < 16 by omega),
    hexValue?_digitChar (show n / 256 % 16 < 16 by omega),
    hexValue?_digitChar (show n / 16 % 16 < 16 by omega),
    hexValue?_digitChar (show n % 16 < 16 by omega)]
  simp only [Option.bind_eq_bind, Option.bind_some, Option.pure_def, value]

/-! ### Code points -/

/-- Whether what follows does not start with an escape of the second half of a pair. -/
def NotClosing (r : List Char) : Prop :=
  ∀ m r', (dropWord? ['\\', 'u'] r).bind unit? = some (m, r') → Text.closesPair m = false

/-- Four digits alone name their unit. -/
theorem codeEscape?_unit {n : Nat} {cs r : List Char} (h : unit? cs = some (n, r))
    (separate : Text.opensPair n = true → NotClosing r) :
    codeEscape? .kept cs = some (n, r) := by
  unfold codeEscape?
  rw [h]
  simp only [Option.bind_eq_bind, Option.bind_some, halfPair?]
  by_cases low : n < 0xd800 ∨ 0xe000 ≤ n
  · simp [low]
  · by_cases second : 0xdc00 ≤ n
    · simp [low, second]
    · have opens : Text.opensPair n = true := by
        simp only [Text.opensPair, Bool.and_eq_true, decide_eq_true_eq]
        omega
      have notClosing := separate opens
      simp only [second, if_false]
      cases next : (dropWord? ['\\', 'u'] r).bind unit? with
      | none => simp [low]
      | some next' =>
        obtain ⟨m, r'⟩ := next'
        have closes := notClosing m r' next
        simp only [Text.closesPair] at closes
        simp [low, closes]

theorem dropWord?_escape (r : List Char) : dropWord? ['\\', 'u'] ('\\' :: 'u' :: r) = some r := by
  simp only [dropWord?, if_true]

/-- The two halves of a pair name the code point that they make up. -/
theorem codeEscape?_pair {first second : Nat} {cs ds r : List Char}
    (h : unit? cs = some (first, '\\' :: 'u' :: ds)) (h' : unit? ds = some (second, r))
    (opens : Text.opensPair first = true) (closes : Text.closesPair second = true) :
    codeEscape? .kept cs = some (0x10000 + (first - 0xd800) * 0x400 + (second - 0xdc00), r) := by
  simp only [Text.opensPair, Text.closesPair, Bool.and_eq_true, decide_eq_true_eq] at opens closes
  have high : ¬(first < 0xd800 ∨ 0xe000 ≤ first) := by omega
  have open' : ¬0xdc00 ≤ first := by omega
  unfold codeEscape?
  rw [h]
  simp only [Option.bind_eq_bind, Option.bind_some, dropWord?_escape, h']
  simp [high, open', closes]

theorem escape?_pair {n first second : Nat} (opens : Text.opensPair first = true)
    (closes : Text.closesPair second = true)
    (code : 0x10000 + (first - 0xd800) * 0x400 + (second - 0xdc00) = n) (r : List Char) :
    escape? .kept ('u' :: (Text.hex 4 first ++ unitEscape second) ++ r) = some (n, r) := by
  have low : first < 0x10000 ∧ second < 0x10000 := by
    simp only [Text.opensPair, Text.closesPair, Bool.and_eq_true, decide_eq_true_eq] at opens closes
    omega
  have units := codeEscape?_pair (unit?_hex low.1 _) (unit?_hex low.2 r) opens closes
  rw [List.cons_append, List.append_assoc, escape?, ← code]
  exact units

theorem unitEscape_append (first second : Nat) : unitEscape first ++ unitEscape second =
    '\\' :: 'u' :: (Text.hex 4 first ++ unitEscape second) := rfl

theorem exists_halves {n : Nat} (low : ¬n < 0x10000) (bound : n < 0x110000) :
    ∃ first second, codeEscape n = unitEscape first ++ unitEscape second ∧
      Text.opensPair first = true ∧ Text.closesPair second = true ∧
      0x10000 + (first - 0xd800) * 0x400 + (second - 0xdc00) = n := by
  refine ⟨0xd800 + (n - 0x10000) / 0x400, 0xdc00 + (n - 0x10000) % 0x400, if_neg low, ?_, ?_, ?_⟩
  · simp only [Text.opensPair, Bool.and_eq_true, decide_eq_true_eq]
    omega
  · simp only [Text.closesPair, Bool.and_eq_true, decide_eq_true_eq]
    omega
  · omega

/-- An escape of a code point is read as that code point. -/
theorem escape?_codeEscape {n : Nat} (bound : n < 0x110000) {r : List Char}
    (separate : Text.opensPair n = true → NotClosing r) :
    ∃ cs, codeEscape n = '\\' :: cs ∧ escape? .kept (cs ++ r) = some (n, r) := by
  by_cases h : n < 0x10000
  · refine ⟨'u' :: Text.hex 4 n, if_pos h, ?_⟩
    rw [List.cons_append, escape?]
    exact codeEscape?_unit (unit?_hex h r) separate
  · obtain ⟨first, second, hescape, opens, closes, code⟩ := exists_halves h bound
    rw [hescape, unitEscape_append]
    exact ⟨_, rfl, escape?_pair opens closes code r⟩

/-! ### Texts -/

theorem textAfter?_escape {policy : HalfPair} {fuel n : Nat} {read r r' : List Char}
    (h : escape? policy r = some (n, r')) :
    textAfter? policy (fuel + 1) read ('\\' :: r) =
      textAfter? policy fuel ((Text.charsOf n).reverse ++ read) r' := by
  rw [textAfter?]
  simp [h]

/-- Whether a character stands for itself inside a written text. -/
def isBare (c : Char) : Prop := c ≠ '"' ∧ c ≠ '\\' ∧ 0x20 ≤ c.toNat

theorem textAfter?_bare {policy : HalfPair} (fuel : Nat) (read : List Char) {cs : List Char}
    (h : ∀ c ∈ cs, isBare c) (r : List Char) :
    textAfter? policy (fuel + cs.length) read (cs ++ r) =
      textAfter? policy fuel (cs.reverse ++ read) r := by
  induction cs generalizing read with
  | nil => rfl
  | cons c cs ih =>
    rw [List.forall_mem_cons] at h
    obtain ⟨hquote, hslash, hcontrol⟩ := h.1
    rw [List.length_cons, ← Nat.add_assoc, List.cons_append, textAfter?, if_neg hquote,
      if_neg hslash, if_neg (by omega), ih _ h.2]
    simp

theorem isBare_of_mem_charsOf {n : Nat} (bound : n < 0x110000) (low : 0x20 ≤ n)
    (hquote : n ≠ 0x22) (hslash : n ≠ 0x5c) {c : Char} (hc : c ∈ Text.charsOf n) : isBare c := by
  have ofCode {m : Nat} (valid : m.isValidChar) (low : 0x20 ≤ m) (hquote : m ≠ 0x22)
      (hslash : m ≠ 0x5c) : isBare (Char.ofNat m) := by
    have code := Text.toNat_ofNat_of_isValidChar valid
    refine ⟨fun h => hquote ?_, fun h => hslash ?_, by rwa [code]⟩
    · rw [← code, h]
      rfl
    · rw [← code, h]
      rfl
  unfold Text.charsOf at hc
  split at hc
  · rename_i half
    simp only [Text.isHalfPair, Bool.and_eq_true, decide_eq_true_eq] at half
    cases List.mem_singleton.1 hc
    unfold Text.halfPairOffset
    exact ofCode (.inr ⟨by omega, by omega⟩) (by omega) (by omega) (by omega)
  · rename_i whole
    have valid := Text.isValidChar_of_not_isHalfPair bound (Bool.eq_false_iff.2 whole)
    split at hc
    · simp only [List.mem_cons, List.not_mem_nil, or_false] at hc
      rcases hc with rfl | rfl
      · exact ⟨by decide, by decide, by decide⟩
      · exact ofCode valid low hquote hslash
    · cases List.mem_singleton.1 hc
      exact ofCode valid low hquote hslash

theorem charsOf_ne_nil (n : Nat) : Text.charsOf n ≠ [] := by
  unfold Text.charsOf
  split
  · simp
  · split <;> simp

theorem notClosing_cons {c : Char} (h : c ≠ '\\') (r : List Char) : NotClosing (c :: r) := by
  intro m r' next
  simp [dropWord?, h.symm] at next

/-- A code point that stands for itself is no escape. -/
theorem notClosing_charsOf {n : Nat} (bare : ∀ c ∈ Text.charsOf n, isBare c) (r : List Char) :
    NotClosing (Text.charsOf n ++ r) := by
  obtain ⟨c, cs, hcs⟩ := List.exists_cons_of_ne_nil (charsOf_ne_nil n)
  have plain : isBare c := bare c (by simp [hcs])
  rw [hcs, List.cons_append]
  exact notClosing_cons plain.2.1 _

/-- An escape of one character is no escape of a unit. -/
theorem notClosing_short {c : Char} (h : c ≠ 'u') (r : List Char) :
    NotClosing ('\\' :: c :: r) := by
  intro m r' next
  simp [dropWord?, h.symm] at next

theorem notClosing_unit {n : Nat} {cs r : List Char} (h : unit? cs = some (n, r))
    (closes : Text.closesPair n = false) : NotClosing ('\\' :: 'u' :: cs) := by
  intro m r' next
  rw [dropWord?_escape, Option.bind_some, h] at next
  cases next
  exact closes

theorem closesPair_of_opensPair {n : Nat} (h : Text.opensPair n = true) :
    Text.closesPair n = false := by
  simp only [Text.opensPair, Bool.and_eq_true, decide_eq_true_eq] at h
  simp only [Text.closesPair, Bool.and_eq_false_iff, decide_eq_false_iff_not]
  omega

/-- A written code point is read back in at most as many steps as it has characters. -/
theorem textAfter?_writtenCode (charset : Charset) {n : Nat} (bound : n < 0x110000)
    {r : List Char} (separate : charset = .ascii → Text.opensPair n = true → NotClosing r) :
    ∃ k, k ≤ (writtenCode charset n).length ∧ ∀ fuel read,
      textAfter? .kept (fuel + k) read (writtenCode charset n ++ r) =
        textAfter? .kept fuel ((Text.charsOf n).reverse ++ read) r := by
  have short {m : Nat} {c : Char} (h : escape? .kept (c :: r) = some (m, r)) :
      ∃ k, k ≤ ['\\', c].length ∧ ∀ fuel read,
        textAfter? .kept (fuel + k) read (['\\', c] ++ r) =
          textAfter? .kept fuel ((Text.charsOf m).reverse ++ read) r :=
    ⟨1, by simp, fun fuel read => textAfter?_escape h⟩
  unfold writtenCode
  split
  · rename_i h
    subst h
    exact short rfl
  split
  · rename_i h
    subst h
    exact short rfl
  split
  · rename_i h
    subst h
    exact short rfl
  split
  · rename_i h
    subst h
    exact short rfl
  split
  · rename_i h
    subst h
    exact short rfl
  split
  · rename_i h
    subst h
    exact short rfl
  split
  · rename_i h
    subst h
    exact short rfl
  split
  · rename_i hquote hslash _ _ _ _ _ plain
    simp only [Bool.and_eq_true, decide_eq_true_eq] at plain
    exact ⟨_, le_refl _, fun fuel read => textAfter?_bare fuel read
      (fun c hc => isBare_of_mem_charsOf bound plain.1 hquote hslash hc) r⟩
  · rename_i escaped
    have separate' : Text.opensPair n = true → NotClosing r := by
      intro opens
      refine separate ?_ opens
      -- Of all the halves, only a writer of ASCII escapes any.
      simp only [Text.opensPair, Bool.and_eq_true, decide_eq_true_eq] at opens
      have low : 0x20 ≤ n := by omega
      cases charset with
      | ascii => rfl
      | unicode => simp [low] at escaped
    obtain ⟨cs, hcs, hescape⟩ := escape?_codeEscape bound separate'
    rw [hcs]
    exact ⟨1, by simp, fun fuel read => textAfter?_escape hescape⟩

/-- What is written for a code point that closes no pair is no escape that closes one. -/
theorem notClosing_writtenCode (charset : Charset) {n : Nat} (bound : n < 0x110000)
    (closes : Text.closesPair n = false) (r : List Char) :
    NotClosing (writtenCode charset n ++ r) := by
  unfold writtenCode
  split
  · exact notClosing_short (by decide) r
  split
  · exact notClosing_short (by decide) r
  split
  · exact notClosing_short (by decide) r
  split
  · exact notClosing_short (by decide) r
  split
  · exact notClosing_short (by decide) r
  split
  · exact notClosing_short (by decide) r
  split
  · exact notClosing_short (by decide) r
  split
  · rename_i hquote hslash _ _ _ _ _ plain
    simp only [Bool.and_eq_true, decide_eq_true_eq] at plain
    exact notClosing_charsOf (fun c hc => isBare_of_mem_charsOf bound plain.1 hquote hslash hc) r
  · by_cases low : n < 0x10000
    · rw [codeEscape, if_pos low]
      exact notClosing_unit (unit?_hex low r) closes
    · obtain ⟨first, second, hescape, opens, -, -⟩ := exists_halves low bound
      have low : first < 0x10000 := by
        simp only [Text.opensPair, Bool.and_eq_true, decide_eq_true_eq] at opens
        omega
      rw [hescape, unitEscape_append, List.cons_append, List.cons_append, List.append_assoc]
      exact notClosing_unit (unit?_hex low _) (closesPair_of_opensPair opens)

/-- The code points of a text come back when no two halves of a pair fit together. -/
theorem textAfter?_written (charset : Charset) {ns : List Nat} (bound : ∀ n ∈ ns, n < 0x110000)
    (apart : charset = .ascii →
      ns.IsChain fun m n => ¬(Text.opensPair m = true ∧ Text.closesPair n = true))
    (rest : List Char) {fuel : Nat} (enough : (ns.flatMap (writtenCode charset)).length < fuel)
    (read : List Char) :
    textAfter? .kept fuel read (ns.flatMap (writtenCode charset) ++ '"' :: rest) =
      some (String.ofList (read.reverse ++ ns.flatMap Text.charsOf), rest) := by
  induction ns generalizing fuel read with
  | nil =>
    obtain ⟨fuel, rfl⟩ := Nat.exists_eq_add_one.2 (Nat.zero_lt_of_lt enough)
    simp [textAfter?]
  | cons n ns ih =>
    rw [List.forall_mem_cons] at bound
    rw [List.flatMap_cons, List.length_append] at enough
    -- The escape of an opening half is read alone because no closing half follows.
    have separate : charset = .ascii → Text.opensPair n = true →
        NotClosing (ns.flatMap (writtenCode charset) ++ '"' :: rest) := by
      intro ascii opens
      cases ns with
      | nil => exact notClosing_cons (by decide) rest
      | cons m ns =>
        have closes := (List.isChain_cons_cons.1 (apart ascii)).1
        rw [List.flatMap_cons, List.append_assoc]
        refine notClosing_writtenCode charset (bound.2 m List.mem_cons_self) ?_ _
        simpa [opens] using closes
    obtain ⟨k, hk, step⟩ := textAfter?_writtenCode charset bound.1 separate
    have hfuel : fuel - k + k = fuel := by omega
    rw [List.flatMap_cons, List.append_assoc, ← hfuel, step,
      ih bound.2 (fun ascii => List.isChain_of_isChain_cons (apart ascii)) (by omega)]
    simp

theorem textAfter?_writtenText {charset : Charset} {s : String} (h : Keeps charset s)
    (rest : List Char) {fuel : Nat} (enough : (writtenText charset s).length ≤ fuel + 1) :
    textAfter? .kept fuel [] (((Text.codes s).flatMap (writtenCode charset) ++ ['"']) ++ rest) =
      some (s, rest) := by
  obtain ⟨ns, bound, rfl⟩ := h.coded
  have codes := Text.codes_ofCodes ns bound
  have apart := h.apart
  rw [codes] at apart
  rw [writtenText, codes] at enough
  simp only [List.cons_append, List.length_cons, List.length_append, List.length_nil] at enough
  rw [codes, List.append_assoc, List.singleton_append,
    textAfter?_written charset bound apart rest (by omega)]
  rfl

end Json

end UnusedDeps
