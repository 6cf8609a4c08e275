import UnusedDeps.Proofs.Json.Spelling
import UnusedDeps.Proofs.Spool.Identity

/-!
# Texts of documents

A document is read from characters, and half of a surrogate pair can only come from
an escape. The reader joins two halves that fit together, so no text of a document
holds such a pair, and all of them come back from JSON. Main statement:
`holdsFaithful_of_document`.
-/

namespace UnusedDeps

/-- Whether the texts and names in a value come back from JSON. -/
inductive Value.HoldsFaithful : Value → Prop
  | null : HoldsFaithful .null
  | bool (b : Bool) : HoldsFaithful (.bool b)
  | int (n : Int) : HoldsFaithful (.int n)
  | float (x : Binary64) : HoldsFaithful (.float x)
  | text {s : String} (h : Text.IsFaithful s) : HoldsFaithful (.text s)
  | list {items : List Value} (h : ∀ v ∈ items, HoldsFaithful v) : HoldsFaithful (.list items)
  | table {fields : List (String × Value)} (names : ∀ f ∈ fields, Text.IsFaithful f.1)
      (h : ∀ f ∈ fields, HoldsFaithful f.2) : HoldsFaithful (.table fields)

namespace Json

/-! ### Characters that keep others -/

/-- Whether characters are those that keep the code points of some characters. -/
def KeepsChars (cs : List Char) : Prop := ∃ ts, cs = Text.kept ts

theorem keepsChars_cases {cs : List Char} (h : KeepsChars cs) :
    cs = [] ∨ ∃ (c : Char) (r : List Char), cs = Text.charsOf c.toNat ++ r ∧ KeepsChars r := by
  obtain ⟨ts, rfl⟩ := h
  cases ts with
  | nil => exact .inl rfl
  | cons c ts => exact .inr ⟨c, Text.kept ts, List.flatMap_cons, ts, rfl⟩

/-- What stands behind a low character keeps characters too. -/
theorem KeepsChars.tail {c : Char} {r : List Char} (h : KeepsChars (c :: r))
    (low : Text.isLow c = true) : KeepsChars r := by
  rcases keepsChars_cases h with h | ⟨d, s, split, hs⟩
  · cases h
  · by_cases lowd : Text.isLow d = true
    · rw [Text.charsOf_of_isLow lowd] at split
      cases split
      exact hs
    · -- A character that is not low is kept by others that are not.
      have first : Text.isLow c = true → c = d := by
        intro low
        have member : c ∈ Text.kept [d] := by
          obtain ⟨e, es, he⟩ := List.exists_cons_of_ne_nil (charsOf_ne_nil d.toNat)
          rw [he] at split
          cases split
          rw [kept_singleton, he]
          exact List.mem_cons_self
        exact List.mem_singleton.1 (Text.mem_of_mem_kept low member)
      exact absurd (first low ▸ low) lowd

theorem KeepsChars.dropWhile {p : Char → Bool} (low : ∀ c, p c = true → Text.isLow c = true)
    {cs : List Char} (h : KeepsChars cs) : KeepsChars (cs.dropWhile p) := by
  induction cs with
  | nil => exact h
  | cons c cs ih =>
    rw [List.dropWhile_cons]
    split
    · rename_i hc
      exact ih (h.tail (low c hc))
    · exact h

theorem KeepsChars.skipSpace {cs : List Char} (h : KeepsChars cs) : KeepsChars (skipSpace cs) :=
  h.dropWhile fun _ => isLow_of_isSpace

theorem KeepsChars.dropWord? {word cs r : List Char} (h : KeepsChars cs) (low : IsAscii word)
    (dropped : dropWord? word cs = some r) : KeepsChars r := by
  induction word generalizing cs with
  | nil =>
    cases dropped
    exact h
  | cons w word ih =>
    unfold IsAscii at low
    rw [List.forall_mem_cons] at low
    cases cs with
    | nil => cases dropped
    | cons c cs =>
      unfold Json.dropWord? at dropped
      split at dropped
      · rename_i same
        subst same
        exact ih (h.tail (isLow_of_lt low.1)) low.2 dropped
      · cases dropped

/-! ### Escapes -/

theorem hexValue?_bounds {c : Char} {d : Nat} (h : hexValue? c = some d) :
    d < 16 ∧ Text.isLow c = true := by
  have bounds (lo hi : Char) (inside : (lo ≤ c && c ≤ hi) = true) :
      lo.toNat ≤ c.toNat ∧ c.toNat ≤ hi.toNat := by
    simpa [Char.le_def, UInt32.le_iff_toNat_le] using inside
  have low (hi : Char) (ascii : hi.toNat < 0x80) (h : c.toNat ≤ hi.toNat) :
      Text.isLow c = true := isLow_of_lt (by omega)
  unfold hexValue? at h
  split at h
  · rename_i inside
    cases h
    have := bounds _ _ inside
    exact ⟨by simp at this ⊢; omega, low _ (by decide) this.2⟩
  split at h
  · rename_i inside
    cases h
    have := bounds _ _ inside
    exact ⟨by simp at this ⊢; omega, low _ (by decide) this.2⟩
  split at h
  · rename_i inside
    cases h
    have := bounds _ _ inside
    exact ⟨by simp at this ⊢; omega, low _ (by decide) this.2⟩
  · cases h

/-- A unit takes four digits. -/
theorem unit?_bounds {cs r : List Char} {n : Nat} (h : unit? cs = some (n, r)) :
    n < 0x10000 ∧ (KeepsChars cs → KeepsChars r) := by
  unfold unit? at h
  split at h
  · rename_i a b c d rest
    simp only [Option.bind_eq_bind, Option.bind_eq_some_iff, Option.pure_def, Option.some.injEq,
      Prod.mk.injEq] at h
    obtain ⟨w, hw, x, hx, y, hy, z, hz, hn, rfl⟩ := h
    obtain ⟨hw, lowa⟩ := hexValue?_bounds hw
    obtain ⟨hx, lowb⟩ := hexValue?_bounds hx
    obtain ⟨hy, lowc⟩ := hexValue?_bounds hy
    obtain ⟨hz, lowd⟩ := hexValue?_bounds hz
    exact ⟨by omega, fun h => (((h.tail lowa).tail lowb).tail lowc).tail lowd⟩
  · cases h

/-- Whether a code point was read in front of the rest of a text: what is left keeps characters,
and no closing half follows an opening one. -/
structure IsReadBefore (n : Nat) (r : List Char) : Prop where
  bound : n < 0x110000
  rest : KeepsChars r
  separate : Text.opensPair n = true → NotClosing r

/-- A code point that is no half of a pair can be read before anything. -/
theorem isReadBefore_whole {n : Nat} {r : List Char}
    (whole : n < 0x110000 ∧ Text.isHalfPair n = false) (h : KeepsChars r) {P : Prop} :
    IsReadBefore n r ∧ (P → Text.closesPair n = false) := by
  have apart : n < 0xd800 ∨ 0xdfff < n := by
    have half := whole.2
    simp only [Text.isHalfPair, Bool.and_eq_false_iff, decide_eq_false_iff_not] at half
    omega
  refine ⟨⟨whole.1, h, fun opens => ?_⟩, fun _ => ?_⟩
  · simp only [Text.opensPair, Bool.and_eq_true, decide_eq_true_eq] at opens
    omega
  · simp only [Text.closesPair, Bool.and_eq_false_iff, decide_eq_false_iff_not]
    omega

/-- An escape names the unit of its digits, or it takes the closing half behind an opening one. -/
theorem codeEscape?_cases {cs r : List Char} {n : Nat} (read : codeEscape? .kept cs = some (n, r)) :
    (unit? cs = some (n, r) ∧ (Text.opensPair n = true → NotClosing r)) ∨
      ∃ first second rest, unit? cs = some (first, rest) ∧
        (dropWord? ['\\', 'u'] rest).bind unit? = some (second, r) ∧
        Text.opensPair first = true ∧ Text.closesPair second = true ∧
        n = Text.pairCode first second := by
  unfold codeEscape? at read
  cases hfirst : unit? cs with
  | none =>
    rw [hfirst] at read
    cases read
  | some next =>
    obtain ⟨first, rest⟩ := next
    rw [hfirst] at read
    simp only [Option.bind_eq_bind, Option.bind_some, halfPair?, Option.pure_def] at read
    by_cases opens : Text.opensPair first = true
    · have codes := opens
      simp only [Text.opensPair, Bool.and_eq_true, decide_eq_true_eq] at codes
      rw [if_neg (by simp; omega), if_neg (by omega)] at read
      -- The opening half stands alone when no closing one follows.
      have alone (notClosing : NotClosing rest) (same : some (first, rest) = some (n, r)) :
          some (first, rest) = some (n, r) ∧ (Text.opensPair n = true → NotClosing r) := by
        obtain ⟨rfl, rfl⟩ := Prod.mk.inj (Option.some.inj same)
        exact ⟨rfl, fun _ => notClosing⟩
      split at read
      · rename_i second rest' next
        split at read
        · rename_i closes
          obtain ⟨code, rfl⟩ := Prod.mk.inj (Option.some.inj read)
          exact .inr ⟨first, second, rest, rfl, next, opens, closes, code.symm⟩
        · rename_i other
          refine .inl (alone (fun m s hm => ?_) read)
          cases next.symm.trans hm
          exact Bool.eq_false_iff.2 other
      · rename_i none
        refine .inl (alone (fun m s hm => ?_) read)
        cases none.symm.trans hm
    · have apart : first < 0xd800 ∨ 0xe000 ≤ first ∨ 0xdc00 ≤ first := by
        simp only [Text.opensPair, Bool.and_eq_true, decide_eq_true_eq] at opens
        omega
      have same : some (first, rest) = some (n, r) := by
        split at read
        · exact read
        · rename_i half
          simp only [Bool.or_eq_true, decide_eq_true_eq, not_or] at half
          rwa [if_pos (by omega)] at read
      obtain ⟨rfl, rfl⟩ := Prod.mk.inj (Option.some.inj same)
      exact .inl ⟨rfl, fun h => absurd h opens⟩

theorem isReadBefore_codeEscape? {cs r : List Char} {n : Nat} (h : KeepsChars cs)
    (read : codeEscape? .kept cs = some (n, r)) :
    IsReadBefore n r ∧ (NotClosing ('\\' :: 'u' :: cs) → Text.closesPair n = false) := by
  rcases codeEscape?_cases read with ⟨single, separate⟩ |
    ⟨m, m', rest, hm, hm', opens, closes, code⟩
  · obtain ⟨bound, keeps⟩ := unit?_bounds single
    refine ⟨⟨by omega, keeps h, separate⟩, fun notClosing => notClosing n r ?_⟩
    rw [dropWord?_escape, Option.bind_some, single]
  · obtain ⟨ds, dropped, second⟩ := Option.bind_eq_some_iff.1 hm'
    have keeps := (unit?_bounds second).2 (((unit?_bounds hm).2 h).dropWord? (by decide) dropped)
    have bounds := Text.pairCode_bounds opens closes
    rw [← code] at bounds
    have whole : Text.isHalfPair n = false := by
      simp only [Text.isHalfPair, Bool.and_eq_false_iff, decide_eq_false_iff_not]
      omega
    exact isReadBefore_whole ⟨bounds.2, whole⟩ keeps

theorem isReadBefore_escape? {cs r : List Char} {n : Nat} (h : KeepsChars cs)
    (read : escape? .kept cs = some (n, r)) :
    IsReadBefore n r ∧ (NotClosing ('\\' :: cs) → Text.closesPair n = false) := by
  unfold escape? at read
  split at read
  case h_9 => exact isReadBefore_codeEscape? (h.tail (by decide)) read
  case h_10 => cases read
  all_goals
    cases read
    exact isReadBefore_whole (by decide) (h.tail (by decide))

/-! ### Texts -/

/-- Code points one after the other, of which no two make up a pair. -/
def IsApart (ns : List Nat) : Prop :=
  ns.IsChain fun m n => ¬(Text.opensPair m = true ∧ Text.closesPair n = true)

/-- Whether code points were read in front of the rest of a text. -/
structure AreReadBefore (ns : List Nat) (r : List Char) : Prop where
  bound : ∀ n ∈ ns, n < 0x110000
  apart : IsApart ns
  rest : KeepsChars r
  separate : ∀ n ∈ ns.getLast?, Text.opensPair n = true → NotClosing r

theorem AreReadBefore.concat {ns : List Nat} {n : Nat} {cs r : List Char}
    (h : AreReadBefore ns cs) (next : IsReadBefore n r)
    (apart : NotClosing cs → Text.closesPair n = false) : AreReadBefore (ns ++ [n]) r where
  bound := by
    rw [List.forall_mem_append, List.forall_mem_singleton]
    exact ⟨h.bound, next.bound⟩
  apart := by
    refine List.isChain_append.2 ⟨h.apart, List.isChain_singleton _, ?_⟩
    rintro m hm k hk ⟨opens, closes⟩
    cases hk
    rw [apart (h.separate m hm opens)] at closes
    cases closes
  rest := next.rest
  separate := by
    rw [List.getLast?_concat]
    rintro m hm
    cases hm
    exact next.separate

theorem AreReadBefore.isFaithful {ns : List Nat} {cs : List Char} (h : AreReadBefore ns cs) :
    Text.IsFaithful (Text.ofCodes ns) := by
  refine ⟨⟨ns, h.bound, rfl⟩, ?_⟩
  rw [Text.codes_ofCodes ns h.bound]
  exact h.apart

/-- Characters that stand for themselves are read one by one. -/
theorem exists_textAfter?_bare {policy : HalfPair} {fuel : Nat} {read cs r : List Char}
    {answer : String × List Char} (bare : ∀ c ∈ cs, isBare c)
    (h : textAfter? policy fuel read (cs ++ r) = some answer) :
    ∃ less, less + cs.length = fuel ∧
      textAfter? policy less (cs.reverse ++ read) r = some answer := by
  induction cs generalizing fuel read with
  | nil => exact ⟨fuel, rfl, h⟩
  | cons c cs ih =>
    rw [List.forall_mem_cons] at bare
    obtain ⟨hquote, hslash, hcontrol⟩ := bare.1
    cases fuel with
    | zero => cases h
    | succ fuel =>
      rw [List.cons_append, textAfter?, if_neg hquote, if_neg hslash, if_neg (by omega)] at h
      obtain ⟨less, rfl, hrest⟩ := ih bare.2 h
      refine ⟨less, by rw [List.length_cons, Nat.add_assoc], ?_⟩
      rw [List.reverse_cons, List.append_assoc]
      exact hrest

/-- The rest of a text gives one that comes back. -/
theorem isFaithful_of_textAfter? {fuel : Nat} {ns : List Nat} {cs r : List Char} {s : String}
    (h : AreReadBefore ns cs)
    (read : textAfter? .kept fuel (ns.flatMap Text.charsOf).reverse cs = some (s, r)) :
    Text.IsFaithful s ∧ KeepsChars r := by
  induction fuel using Nat.strong_induction_on generalizing ns cs with
  | _ fuel ih =>
    have step {n : Nat} {less : Nat} {rest : List Char} (fewer : less < fuel)
        (next : AreReadBefore (ns ++ [n]) rest)
        (read : textAfter? .kept less
          ((Text.charsOf n).reverse ++ (ns.flatMap Text.charsOf).reverse) rest = some (s, r)) :
        Text.IsFaithful s ∧ KeepsChars r := by
      refine ih less fewer next ?_
      rwa [List.flatMap_append, List.reverse_append, List.flatMap_singleton]
    rcases keepsChars_cases h.rest with rfl | ⟨c, rest, rfl, hrest⟩
    · cases fuel <;> cases read
    by_cases bare : isBare c
    · have all := isBare_of_mem_kept bare
      obtain ⟨less, hless, read⟩ := exists_textAfter?_bare all read
      have some : 0 < (Text.charsOf c.toNat).length :=
        List.length_pos_iff.2 (charsOf_ne_nil c.toNat)
      obtain ⟨next, apart⟩ := isReadBefore_whole (Text.isCode_of_char c) hrest
      exact step (by omega) (h.concat next apart) read
    · have low : Text.isLow c = true := by
        by_contra high
        simp only [Text.isLow, decide_eq_true_eq] at high
        refine bare ⟨?_, ?_, by omega⟩ <;> rintro rfl <;> exact high (by decide)
      rw [Text.charsOf_of_isLow low, List.singleton_append] at read h
      cases fuel with
      | zero => cases read
      | succ fuel =>
        unfold textAfter? at read
        split at read
        · cases read
          have ofCodes : String.ofList (ns.flatMap Text.charsOf).reverse.reverse =
              Text.ofCodes ns := by
            rw [List.reverse_reverse, Text.ofCodes]
          exact ⟨ofCodes ▸ h.isFaithful, hrest⟩
        split at read
        · rename_i slash
          subst slash
          split at read
          · rename_i n r' escaped
            obtain ⟨next, apart⟩ := isReadBefore_escape? hrest escaped
            exact step (Nat.lt_succ_self _) (h.concat next apart) read
          · cases read
        split at read
        · cases read
        · rename_i hquote hslash hcontrol
          exact absurd ⟨hquote, hslash, by omega⟩ bare

/-! ### Numbers and words -/

theorem isLow_of_isDigit {c : Char} (h : isDigit c = true) : Text.isLow c = true :=
  isLow_of_lt (isAscii_numberChars c (mem_numberChars_of_isDigit h))

theorem KeepsChars.dropDigits {cs : List Char} (h : KeepsChars cs) :
    KeepsChars (cs.dropWhile isDigit) := h.dropWhile fun _ => isLow_of_isDigit

theorem KeepsChars.whole? {cs ds r : List Char} (h : KeepsChars cs)
    (read : whole? cs = some (ds, r)) : KeepsChars r := by
  unfold Json.whole? at read
  split at read
  · cases read
    exact h.tail (by decide)
  · split at read
    · cases read
    · cases read
      exact h.dropDigits

theorem KeepsChars.fraction? {cs ds r : List Char} (h : KeepsChars cs)
    (read : fraction? cs = some (ds, r)) : KeepsChars r := by
  unfold Json.fraction? at read
  split at read
  · split at read
    · cases read
    · cases read
      exact (h.tail (by decide)).dropDigits
  · cases read

theorem KeepsChars.sign {cs : List Char} (h : KeepsChars cs) : KeepsChars (sign cs).2 := by
  unfold Json.sign
  split
  · exact h.tail (by decide)
  · exact h.tail (by decide)
  · exact h

theorem KeepsChars.exponent? {cs r : List Char} {e : Int} (h : KeepsChars cs)
    (read : exponent? cs = some (e, r)) : KeepsChars r := by
  unfold Json.exponent? at read
  split at read
  · rename_i c rest
    split at read
    · rename_i mark
      have low : Text.isLow c = true := by
        simp only [Bool.or_eq_true, decide_eq_true_eq] at mark
        rcases mark with rfl | rfl <;> decide
      dsimp only at read
      split at read
      · cases read
      · cases read
        exact (h.tail low).sign.dropDigits
    · cases read
  · cases read

theorem orRefuse_eq_ok {α : Type} {x : Option α} {a : α} : orRefuse x = .ok a ↔ x = some a := by
  cases x <;> simp [orRefuse]

theorem number_holds {rules : Rules} {cs r : List Char} {v : Value} (h : KeepsChars cs)
    (read : number rules cs = .ok (v, r)) : v.HoldsFaithful ∧ KeepsChars r := by
  unfold number at read
  split at read
  rename_i negative cs' split
  have start : KeepsChars cs' := by
    split at split <;> cases split
    · exact h.tail (by decide)
    · exact h
  obtain ⟨⟨ds, rest⟩, whole, read⟩ := bind_eq_ok.1 read
  have hrest := start.whole? (orRefuse_eq_ok.1 whole)
  dsimp only at read
  split at read
  · cases read
  rcases hf : fraction? rest with _ | ⟨fs, rest'⟩
  · rw [hf] at read
    dsimp only at read
    split at read
    · rename_i exponent
      cases read
      exact ⟨.float _, hrest.exponent? exponent⟩
    split at read
    · contradiction
    split at read
    · cases read
    · cases read
      exact ⟨.int _, hrest⟩
  · have hrest' := hrest.fraction? hf
    rw [hf] at read
    dsimp only at read
    split at read
    · rename_i exponent
      cases read
      exact ⟨.float _, hrest'.exponent? exponent⟩
    · cases read
      exact ⟨.float _, hrest'⟩

theorem scalar_holds {rules : Rules} {cs r : List Char} {v : Value} (h : KeepsChars cs)
    (read : scalar rules cs = .ok (v, r)) : v.HoldsFaithful ∧ KeepsChars r := by
  have each : ∀ e ∈ words, IsAscii e.1.toList ∧ e.2.HoldsFaithful := by
    simp only [words, List.forall_mem_cons]
    exact ⟨⟨by decide, .null⟩, ⟨by decide, .bool _⟩, ⟨by decide, .bool _⟩, ⟨by decide, .float _⟩,
      ⟨by decide, .float _⟩, ⟨by decide, .float _⟩, List.forall_mem_nil _⟩
  unfold scalar at read
  split at read
  · rename_i found
    cases read
    obtain ⟨e, he, hanswer⟩ := List.exists_of_findSome?_eq_some found
    obtain ⟨rest, dropped, heq⟩ := Option.map_eq_some_iff.1 hanswer
    cases heq
    exact ⟨(each e he).2, h.dropWord? (each e he).1 dropped⟩
  · exact number_holds h read

/-! ### Values -/

/-- Whether an answer of the reader has texts that come back, and leaves characters. -/
def Holds (x : Except ReadFault (Value × List Char)) : Prop :=
  ∀ v r, x = .ok (v, r) → v.HoldsFaithful ∧ KeepsChars r

theorem holds_error (e : ReadFault) : Holds (.error e) := by
  rintro v r ⟨⟩

theorem holds_ok {v : Value} {r : List Char} (h : v.HoldsFaithful) (hr : KeepsChars r) :
    Holds (.ok (v, r)) := by
  rintro v r ⟨⟩
  exact ⟨h, hr⟩

theorem KeepsChars.emptyEnd? {rules : Rules} {close : Char} (low : Text.isLow close = true)
    {depth : Nat} {cs r : List Char} (h : KeepsChars cs)
    (ended : emptyEnd? rules close depth cs = .ok (some r)) : KeepsChars r := by
  have keeps := h.skipSpace
  unfold Json.emptyEnd? at ended
  cases hs : Json.skipSpace cs with
  | nil =>
    rw [hs] at ended
    dsimp only at ended
    split at ended <;> cases ended
  | cons c rest =>
    rw [hs] at ended keeps
    dsimp only at ended
    split at ended
    · rename_i same
      split at ended <;> cases ended
      exact keeps.tail (same ▸ low)
    · split at ended <;> cases ended

theorem textAfter?_holds {fuel : Nat} {cs r : List Char} {s : String} (h : KeepsChars cs)
    (read : textAfter? .kept fuel [] cs = some (s, r)) : Text.IsFaithful s ∧ KeepsChars r := by
  have start : AreReadBefore [] cs :=
    ⟨List.forall_mem_nil _, List.isChain_nil, h, fun n hn => by cases hn⟩
  exact isFaithful_of_textAfter? start read

section Steps

variable {rules : Rules} {fuel : Nat}

/-- Whether values that the reader takes in so many steps hold only texts that come back. -/
def ReadsFaithful (rules : Rules) (fuel : Nat) : Prop :=
  ∀ depth cs, KeepsChars cs → Holds (value rules fuel depth cs)

def ListsFaithful (rules : Rules) (fuel : Nat) : Prop :=
  ∀ depth read cs, (∀ v ∈ read, v.HoldsFaithful) → KeepsChars cs →
    Holds (items rules fuel depth read cs)

def TablesFaithful (rules : Rules) (fuel : Nat) : Prop :=
  ∀ depth read cs, (∀ f ∈ read, Text.IsFaithful f.1 ∧ f.2.HoldsFaithful) → KeepsChars cs →
    Holds (fields rules fuel depth read cs)

theorem ReadsFaithful.succ (policy : rules.halfPairs = .kept) (lists : ListsFaithful rules fuel)
    (tables : TablesFaithful rules fuel) : ReadsFaithful rules (fuel + 1) := by
  intro depth cs h
  unfold value
  split
  · rename_i r
    rw [policy]
    cases read : textAfter? .kept fuel [] r with
    | none => exact holds_error _
    | some answer =>
      obtain ⟨faithful, keeps⟩ := textAfter?_holds (h.tail (by decide)) read
      exact holds_ok (.text faithful) keeps
  · have keeps := h.tail (by decide)
    split
    · exact holds_error _
    · rename_i ended
      exact holds_ok (.list (List.forall_mem_nil _)) (keeps.emptyEnd? (by decide) ended)
    · exact lists _ _ _ (List.forall_mem_nil _) keeps.skipSpace
  · have keeps := h.tail (by decide)
    split
    · exact holds_error _
    · rename_i ended
      exact holds_ok (.table (List.forall_mem_nil _) (List.forall_mem_nil _))
        (keeps.emptyEnd? (by decide) ended)
    · exact tables _ _ _ (List.forall_mem_nil _) keeps.skipSpace
  · exact fun v r read => scalar_holds h read

theorem ListsFaithful.succ (values : ReadsFaithful rules fuel) (lists : ListsFaithful rules fuel) :
    ListsFaithful rules (fuel + 1) := by
  intro depth so cs held h
  unfold items
  split
  · exact holds_error _
  rename_i v r read
  obtain ⟨hold, keeps⟩ := values depth cs h v r read
  have all : ∀ w ∈ v :: so, w.HoldsFaithful := List.forall_mem_cons.2 ⟨hold, held⟩
  have rest := keeps.skipSpace
  split
  · rename_i next
    rw [next] at rest
    exact holds_ok (.list fun w hw => all w (List.mem_reverse.1 hw)) (rest.tail (by decide))
  · rename_i next
    rw [next] at rest
    exact lists _ _ _ all (rest.tail (by decide)).skipSpace
  · exact holds_error _

theorem TablesFaithful.succ (policy : rules.halfPairs = .kept) (values : ReadsFaithful rules fuel)
    (tables : TablesFaithful rules fuel) : TablesFaithful rules (fuel + 1) := by
  intro depth so cs held h
  unfold fields
  split
  case h_2 => exact holds_error _
  rw [policy]
  split
  · exact holds_error _
  rename_i k r read
  obtain ⟨faithful, keeps⟩ := textAfter?_holds (h.tail (by decide)) read
  have colon := keeps.skipSpace
  split
  case h_2 => exact holds_error _
  rename_i next
  rw [next] at colon
  split
  · exact holds_error _
  rename_i v r read
  obtain ⟨hold, keeps⟩ := values depth _ (colon.tail (by decide)).skipSpace v r read
  have all : ∀ f ∈ (k, v) :: so, Text.IsFaithful f.1 ∧ f.2.HoldsFaithful :=
    List.forall_mem_cons.2 ⟨⟨faithful, hold⟩, held⟩
  have rest := keeps.skipSpace
  split
  · rename_i next
    rw [next] at rest
    have kept : ∀ f ∈ Mapping.ofPairs ((k, v) :: so).reverse,
        Text.IsFaithful f.1 ∧ f.2.HoldsFaithful := fun f hf =>
      all f (List.mem_reverse.1 (Mapping.mem_of_mem_ofPairs hf))
    exact holds_ok (.table (fun f hf => (kept f hf).1) fun f hf => (kept f hf).2)
      (rest.tail (by decide))
  · rename_i next
    rw [next] at rest
    exact tables _ _ _ all (rest.tail (by decide)).skipSpace
  · exact holds_error _

end Steps

theorem holds_of_fuel {rules : Rules} (policy : rules.halfPairs = .kept) (fuel : Nat) :
    ReadsFaithful rules fuel ∧ ListsFaithful rules fuel ∧ TablesFaithful rules fuel := by
  induction fuel with
  | zero =>
    exact ⟨fun _ _ _ => holds_error _, fun _ _ _ _ _ => holds_error _,
      fun _ _ _ _ _ => holds_error _⟩
  | succ fuel ih =>
    obtain ⟨values, lists, tables⟩ := ih
    exact ⟨.succ policy lists tables, .succ values lists, .succ policy values tables⟩

/-- Whatever is read from characters holds only texts that come back. -/
theorem holdsFaithful_of_document {s : String} {v : Value}
    (read : document (Text.ofPlain s) = .ok v) : v.HoldsFaithful := by
  have keeps : KeepsChars (Text.ofPlain s).toList := by
    refine ⟨s.toList, ?_⟩
    rw [← Text.toList_ofPlain, String.ofList_toList]
  unfold document Json.read wholeValue at read
  split at read
  · rename_i w r hw
    split at read
    · cases read
      exact ((holds_of_fuel rfl _).1 _ _ keeps.skipSpace _ _ hw).1
    · cases read
  · cases read

end Json

end UnusedDeps
