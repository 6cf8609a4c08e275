import UnusedDeps.Proofs.Json.Number
import UnusedDeps.Proofs.Json.RoundTrip
import UnusedDeps.Proofs.Text.Utf8

/-!
# Every spelling of a value is read

A value can be written in many ways: with other escapes, hexadecimal digits in
either case, and space between its parts. A grammar of these spellings stands apart
from the reader, and the reader takes every one of them up to its limits. Main
statements: `textAfter?_spelled` and `reads_spelled`.
-/

namespace UnusedDeps.Json

/-! ### Spellings of texts -/

def IsHexDigit (c : Char) (d : Nat) : Prop := d < 16 ∧ (c = d.digitChar ∨ c = d.digitChar.toUpper)

/-- Four hexadecimal digits spell a unit. -/
inductive SpellsUnit : List Char → Nat → Prop
  | digits {a b c d : Char} {w x y z : Nat} (ha : IsHexDigit a w) (hb : IsHexDigit b x)
      (hc : IsHexDigit c y) (hd : IsHexDigit d z) :
      SpellsUnit [a, b, c, d] (((w * 16 + x) * 16 + y) * 16 + z)

/-- The escapes of one character, with the code points that they name. -/
def shortEscapes : List (Char × Nat) :=
  [('"', 0x22), ('\\', 0x5c), ('/', 0x2f), ('b', 0x08), ('f', 0x0c), ('n', 0x0a), ('r', 0x0d),
   ('t', 0x09)]

inductive SpellsCode : List Char → Nat → Prop
  | bare {c : Char} (h : isBare c) : SpellsCode [c] c.toNat
  | short {c : Char} {n : Nat} (h : (c, n) ∈ shortEscapes) : SpellsCode ['\\', c] n
  | unit {cs : List Char} {n : Nat} (h : SpellsUnit cs n) : SpellsCode ('\\' :: 'u' :: cs) n
  | pair {cs ds : List Char} {first second : Nat} (h : SpellsUnit cs first)
      (h' : SpellsUnit ds second) (opens : Text.opensPair first = true)
      (closes : Text.closesPair second = true) :
      SpellsCode ('\\' :: 'u' :: (cs ++ '\\' :: 'u' :: ds))
        (0x10000 + (first - 0xd800) * 0x400 + (second - 0xdc00))

/-- Whether characters start with the escape of the second half of a pair. -/
def StartsClosing (cs : List Char) : Prop :=
  ∃ ds n r, cs = '\\' :: 'u' :: (ds ++ r) ∧ SpellsUnit ds n ∧ Text.closesPair n = true

/-- Spellings one after the other. Two escapes that make up a pair are not spellings of their
own. -/
inductive SpellsCodes : List Char → List Nat → Prop
  | nil : SpellsCodes [] []
  | cons {cs rest : List Char} {n : Nat} {ns : List Nat} (first : SpellsCode cs n)
      (others : SpellsCodes rest ns) (apart : Text.opensPair n = true → ¬StartsClosing rest) :
      SpellsCodes (cs ++ rest) (n :: ns)

inductive SpellsText : List Char → String → Prop
  | quoted {cs : List Char} {ns : List Nat} (h : SpellsCodes cs ns) :
      SpellsText ('"' :: (cs ++ ['"'])) (Text.ofCodes ns)

/-! ### Spellings of values -/

def AllSpace (cs : List Char) : Prop := ∀ c ∈ cs, isSpace c = true

/-- A field of a table with its spelling. -/
structure SpelledField where
  key : String
  value : Value
  before : List Char
  name : List Char
  after : List Char
  chars : List Char

namespace SpelledField

def all (f : SpelledField) : List Char := f.before ++ f.name ++ f.after ++ ':' :: f.chars

structure IsNamed (f : SpelledField) : Prop where
  before : AllSpace f.before
  name : SpellsText f.name f.key
  after : AllSpace f.after

end SpelledField

/-- The spellings of a value with at most `depth` lists and tables inside each other. -/
inductive Spells : Nat → List Char → Value → Prop
  | null (depth : Nat) : Spells depth ['n', 'u', 'l', 'l'] .null
  | true (depth : Nat) : Spells depth ['t', 'r', 'u', 'e'] (.bool true)
  | false (depth : Nat) : Spells depth ['f', 'a', 'l', 's', 'e'] (.bool false)
  | number (depth : Nat) {cs : List Char} {v : Value} (h : SpellsNumber cs v) : Spells depth cs v
  | text (depth : Nat) {cs : List Char} {s : String} (h : SpellsText cs s) :
      Spells depth cs (.text s)
  | padded {depth : Nat} {before cs after : List Char} {v : Value} (hbefore : AllSpace before)
      (h : Spells depth cs v) (hafter : AllSpace after) : Spells depth (before ++ cs ++ after) v
  | emptyList (depth : Nat) {gap : List Char} (h : AllSpace gap) :
      Spells (depth + 1) ('[' :: (gap ++ [']'])) (.list [])
  | list {depth : Nat} {parts : List (List Char × Value)} (some : parts ≠ [])
      (h : ∀ p ∈ parts, Spells depth p.1 p.2) :
      Spells (depth + 1) ('[' :: (List.intercalate [','] (parts.map Prod.fst) ++ [']']))
        (.list (parts.map Prod.snd))
  | emptyTable (depth : Nat) {gap : List Char} (h : AllSpace gap) :
      Spells (depth + 1) ('\x7b' :: (gap ++ ['\x7d'])) (.table [])
  | table {depth : Nat} {parts : List SpelledField} (some : parts ≠ [])
      (names : ∀ f ∈ parts, f.IsNamed) (h : ∀ f ∈ parts, Spells depth f.chars f.value) :
      Spells (depth + 1)
        ('\x7b' :: (List.intercalate [','] (parts.map SpelledField.all) ++ ['\x7d']))
        (.table (Mapping.ofPairs (parts.map fun f => (f.key, f.value))))

/-! ### Units -/

theorem IsHexDigit.hexValue? {c : Char} {d : Nat} (h : IsHexDigit c d) : hexValue? c = some d := by
  have each : ∀ d < 16, Json.hexValue? d.digitChar.toUpper = some d := by decide
  obtain ⟨low, rfl | rfl⟩ := h
  · exact hexValue?_digitChar low
  · exact each d low

theorem IsHexDigit.toNat_lt {c : Char} {d : Nat} (h : IsHexDigit c d) : c.toNat < 0x80 := by
  have each : ∀ d < 16, d.digitChar.toNat < 0x80 ∧ d.digitChar.toUpper.toNat < 0x80 := by decide
  obtain ⟨low, rfl | rfl⟩ := h
  · exact (each d low).1
  · exact (each d low).2

theorem SpellsUnit.unit? {cs : List Char} {n : Nat} (h : SpellsUnit cs n) (r : List Char) :
    unit? (cs ++ r) = some (n, r) := by
  cases h with
  | digits ha hb hc hd =>
    simp only [List.cons_append, List.nil_append, Json.unit?]
    rw [ha.hexValue?, hb.hexValue?, hc.hexValue?, hd.hexValue?]
    rfl

def IsAscii (cs : List Char) : Prop := ∀ c ∈ cs, c.toNat < 0x80

instance (cs : List Char) : Decidable (IsAscii cs) := List.decidableBAll _ _

theorem SpellsUnit.isAscii {cs : List Char} {n : Nat} (h : SpellsUnit cs n) : IsAscii cs := by
  cases h with
  | digits ha hb hc hd =>
    simp only [IsAscii, List.forall_mem_cons]
    exact ⟨ha.toNat_lt, hb.toNat_lt, hc.toNat_lt, hd.toNat_lt, List.forall_mem_nil _⟩

theorem isLow_of_lt {c : Char} (h : c.toNat < 0x80) : Text.isLow c = true := by
  rw [Text.isLow, decide_eq_true_eq]
  omega

/-- The escape of a unit is kept as it is. -/
theorem SpellsUnit.kept {cs : List Char} {n : Nat} (h : SpellsUnit cs n) (r : List Char) :
    Text.kept ('\\' :: 'u' :: (cs ++ r)) = '\\' :: 'u' :: (cs ++ Text.kept r) := by
  have digits : Text.kept cs = cs := Text.kept_of_isLow fun c hc => isLow_of_lt (h.isAscii c hc)
  rw [Text.kept_cons_of_isLow (by decide), Text.kept_cons_of_isLow (by decide), Text.kept_append,
    digits]

theorem SpellsUnit.kept_self {cs : List Char} {n : Nat} (h : SpellsUnit cs n) :
    Text.kept ('\\' :: 'u' :: cs) = '\\' :: 'u' :: cs := by
  have kept := h.kept []
  rwa [Text.kept_nil, List.append_nil] at kept

/-! ### Code points -/

theorem escape?_short {c : Char} {n : Nat} (h : (c, n) ∈ shortEscapes) (r : List Char) :
    escape? .kept (c :: r) = some (n, r) := by
  simp only [shortEscapes, List.mem_cons, Prod.mk.injEq, List.not_mem_nil, or_false] at h
  rcases h with ⟨rfl, rfl⟩ | ⟨rfl, rfl⟩ | ⟨rfl, rfl⟩ | ⟨rfl, rfl⟩ | ⟨rfl, rfl⟩ | ⟨rfl, rfl⟩ |
    ⟨rfl, rfl⟩ | ⟨rfl, rfl⟩ <;> rfl

theorem kept_short {c : Char} {n : Nat} (h : (c, n) ∈ shortEscapes) :
    Text.kept ['\\', c] = ['\\', c] := by
  have each : ∀ e ∈ shortEscapes, Text.isLow e.1 = true := by decide
  rw [Text.kept_cons_of_isLow (by decide), Text.kept_cons_of_isLow (each _ h), Text.kept_nil]

/-- A character that stands for itself does so with whatever it is kept by. -/
theorem isBare_of_mem_kept {c : Char} (h : isBare c) :
    ∀ d ∈ Text.charsOf c.toNat, isBare d := by
  have hquote : c.toNat ≠ 0x22 := fun code => h.1 (Char.toNat_inj.1 code)
  have hslash : c.toNat ≠ 0x5c := fun code => h.2.1 (Char.toNat_inj.1 code)
  exact fun d hd => isBare_of_mem_charsOf (Text.isCode_of_char c).1 h.2.2 hquote hslash hd

theorem kept_singleton (c : Char) : Text.kept [c] = Text.charsOf c.toNat := List.append_nil _

/-- An escape is read in one step. -/
theorem exists_textAfter?_escape {cs r : List Char} {n : Nat}
    (h : escape? .kept (cs ++ r) = some (n, r)) :
    ∃ k, k ≤ ('\\' :: cs).length ∧ ∀ fuel read,
      textAfter? .kept (fuel + k) read ('\\' :: cs ++ r) =
        textAfter? .kept fuel ((Text.charsOf n).reverse ++ read) r :=
  ⟨1, by simp, fun fuel read => textAfter?_escape h⟩

theorem textAfter?_spelledCode {cs : List Char} {n : Nat} (h : SpellsCode cs n) {r : List Char}
    (separate : Text.opensPair n = true → NotClosing r) :
    ∃ k, k ≤ (Text.kept cs).length ∧ ∀ fuel read,
      textAfter? .kept (fuel + k) read (Text.kept cs ++ r) =
        textAfter? .kept fuel ((Text.charsOf n).reverse ++ read) r := by
  cases h with
  | bare h =>
    rw [kept_singleton]
    exact ⟨_, le_refl _, fun fuel read => textAfter?_bare fuel read (isBare_of_mem_kept h) r⟩
  | short h =>
    rw [kept_short h]
    exact exists_textAfter?_escape (escape?_short h r)
  | unit h =>
    rw [h.kept_self]
    exact exists_textAfter?_escape (codeEscape?_unit (h.unit? r) separate)
  | pair h h' opens closes =>
    have units := codeEscape?_pair (h.unit? _) (h'.unit? r) opens closes
    rw [h.kept, h'.kept_self]
    refine exists_textAfter?_escape ?_
    rw [List.cons_append, List.append_assoc]
    exact units

/-! ### Texts -/

/-- Spellings that do not start with a closing half are not mistaken for one. -/
theorem notClosing_spelled {cs : List Char} {ns : List Nat} (h : SpellsCodes cs ns)
    (apart : ¬StartsClosing cs) {r : List Char} (hr : NotClosing r) :
    NotClosing (Text.kept cs ++ r) := by
  cases h with
  | nil => exact hr
  | @cons cs rest n ns first others _ =>
    rw [Text.kept_append, List.append_assoc]
    cases first with
    | bare h =>
      rw [kept_singleton]
      exact notClosing_charsOf (isBare_of_mem_kept h) _
    | short h =>
      have other : ∀ e ∈ shortEscapes, e.1 ≠ 'u' := by decide
      rw [kept_short h]
      exact notClosing_short (other _ h) _
    | @unit cs _ h =>
      rw [h.kept_self]
      refine notClosing_unit (h.unit? _) (Bool.eq_false_iff.2 fun closes => apart ?_)
      exact ⟨cs, _, rest, rfl, h, closes⟩
    | pair h h' opens closes =>
      rw [h.kept, List.cons_append, List.cons_append, List.append_assoc]
      exact notClosing_unit (h.unit? _) (closesPair_of_opensPair opens)

/-- Spelled code points are read in at most as many steps as there are characters. -/
theorem textAfter?_spelled {cs : List Char} {ns : List Nat} (h : SpellsCodes cs ns)
    {r : List Char} (hr : NotClosing r) :
    ∃ k, k ≤ (Text.kept cs).length ∧ ∀ fuel read,
      textAfter? .kept (fuel + k) read (Text.kept cs ++ r) =
        textAfter? .kept fuel ((ns.flatMap Text.charsOf).reverse ++ read) r := by
  induction h with
  | nil => exact ⟨0, Nat.zero_le _, fun fuel read => rfl⟩
  | @cons cs rest n ns first others apart ih =>
    obtain ⟨k, hk, restRead⟩ := ih
    have separate : Text.opensPair n = true → NotClosing (Text.kept rest ++ r) :=
      fun opens => notClosing_spelled others (apart opens) hr
    obtain ⟨j, hj, firstRead⟩ := textAfter?_spelledCode first separate
    refine ⟨k + j, ?_, fun fuel read => ?_⟩
    · rw [Text.kept_append, List.length_append]
      omega
    · rw [Text.kept_append, List.append_assoc, ← Nat.add_assoc, firstRead, restRead]
      simp

/-- What is kept of a spelled text is a quote and what is read back after it. -/
theorem SpellsText.exists_read {cs : List Char} {s : String} (h : SpellsText cs s) :
    ∃ body, Text.kept cs = '"' :: body ∧ ∀ fuel r, body.length ≤ fuel →
      textAfter? .kept fuel [] (body ++ r) = some (s, r) := by
  cases h with
  | @quoted cs ns h =>
    refine ⟨Text.kept cs ++ ['"'], ?_, fun fuel r enough => ?_⟩
    · rw [Text.kept_cons_of_isLow (by decide), Text.kept_append,
        Text.kept_cons_of_isLow (by decide), Text.kept_nil]
    · have quote : NotClosing ('"' :: r) := notClosing_cons (by decide) r
      obtain ⟨k, hk, step⟩ := textAfter?_spelled h quote
      rw [List.length_append, List.length_singleton] at enough
      have hfuel : fuel = fuel - k - 1 + 1 + k := by omega
      rw [List.append_assoc, List.singleton_append, hfuel, step, textAfter?, if_pos rfl,
        List.append_nil, List.reverse_reverse]
      rfl

/-- Characters that need no escape spell themselves. -/
theorem spellsCodes_bare {cs : List Char} (h : ∀ c ∈ cs, isBare c) :
    SpellsCodes cs (cs.map Char.toNat) := by
  induction cs with
  | nil => exact .nil
  | cons c cs ih =>
    rw [List.forall_mem_cons] at h
    have valid : c.toNat < 0xd800 ∨ 0xdfff < c.toNat ∧ c.toNat < 0x110000 := c.valid
    refine .cons (.bare h.1) (ih h.2) fun opens => ?_
    simp only [Text.opensPair, Bool.and_eq_true, decide_eq_true_eq] at opens
    omega

/-! ### Space -/

theorem isLow_of_isSpace {c : Char} (h : isSpace c = true) : Text.isLow c = true := by
  simp only [isSpace, Bool.or_eq_true, decide_eq_true_eq] at h
  rcases h with ((rfl | rfl) | rfl) | rfl <;> decide

theorem AllSpace.kept {cs : List Char} (h : AllSpace cs) : Text.kept cs = cs :=
  Text.kept_of_isLow fun c hc => isLow_of_isSpace (h c hc)

theorem AllSpace.skipSpace_append {cs : List Char} (h : AllSpace cs) (r : List Char) :
    skipSpace (cs ++ r) = skipSpace r := List.dropWhile_append_of_pos h

theorem AllSpace.append {cs ds : List Char} (h : AllSpace cs) (h' : AllSpace ds) :
    AllSpace (cs ++ ds) := List.forall_mem_append.2 ⟨h, h'⟩

/-! ### The first character -/

/-- The characters that a value can start with. -/
def openings : List Char :=
  ['"', '[', '\x7b', 'n', 't', 'f', '-', '0', '1', '2', '3', '4', '5', '6', '7', '8', '9']

theorem isAscii_openings : IsAscii openings := by decide

theorem isLow_of_mem_openings {c : Char} (h : c ∈ openings) : Text.isLow c = true :=
  isLow_of_lt (isAscii_openings c h)

theorem isSpace_of_mem_openings {c : Char} (h : c ∈ openings) : isSpace c = false := by
  have each : openings.all (fun c => !isSpace c) = true := by decide
  simpa using List.all_eq_true.1 each c h

/-- Whether characters start as a value does, maybe after space. -/
def Opens (cs : List Char) : Prop :=
  ∃ space c rest, cs = space ++ c :: rest ∧ AllSpace space ∧ c ∈ openings

theorem Opens.append {cs : List Char} (h : Opens cs) (r : List Char) : Opens (cs ++ r) := by
  obtain ⟨space, c, rest, rfl, hspace, hc⟩ := h
  exact ⟨space, c, rest ++ r, by simp, hspace, hc⟩

theorem Opens.prepend {space cs : List Char} (hspace : AllSpace space) (h : Opens cs) :
    Opens (space ++ cs) := by
  obtain ⟨space', c, rest, rfl, hspace', hc⟩ := h
  exact ⟨space ++ space', c, rest, by simp, hspace.append hspace', hc⟩

theorem opens_cons {c : Char} (h : c ∈ openings) (cs : List Char) : Opens (c :: cs) :=
  ⟨[], c, cs, rfl, List.forall_mem_nil _, h⟩

theorem Opens.skipSpace {cs : List Char} (h : Opens cs) (r : List Char) :
    ∃ c rest, c ∈ openings ∧ skipSpace (Text.kept cs ++ r) = c :: rest := by
  obtain ⟨space, c, rest, rfl, hspace, hc⟩ := h
  refine ⟨c, Text.kept rest ++ r, hc, ?_⟩
  rw [Text.kept_append, hspace.kept, Text.kept_cons_of_isLow (isLow_of_mem_openings hc),
    List.append_assoc, hspace.skipSpace_append]
  exact skipSpace_cons (isSpace_of_mem_openings hc) _

theorem SpellsText.opens {cs : List Char} {s : String} (h : SpellsText cs s) : Opens cs := by
  cases h
  exact opens_cons (by decide) _

theorem SpellsNumber.opens {cs : List Char} {v : Value} (h : SpellsNumber cs v) : Opens cs := by
  have each : numberChars.all (fun c => !isDigit c || openings.contains c) = true := by decide
  obtain ⟨negative, d, rest, rfl, hd⟩ := h.exists_digit
  have digit : d ∈ openings := by
    simpa [hd] using List.all_eq_true.1 each d (mem_numberChars_of_isDigit hd)
  cases negative with
  | true => exact opens_cons (by decide) _
  | false => exact opens_cons digit _

theorem Spells.opens {d : Nat} {cs : List Char} {v : Value} (h : Spells d cs v) : Opens cs := by
  induction h with
  | number d h => exact h.opens
  | text d h => exact h.opens
  | padded hbefore h hafter ih => exact (ih.prepend hbefore).append _
  | _ => exact opens_cons (by decide) _

theorem SpelledField.IsNamed.opens {f : SpelledField} (h : f.IsNamed) : Opens f.all :=
  ((h.name.opens.prepend h.before).append _).append _

theorem opens_intercalate {ps : List (List Char)} (some : ps ≠ []) (h : ∀ p ∈ ps, Opens p) :
    Opens (List.intercalate [','] ps) := by
  cases ps with
  | nil => exact absurd rfl some
  | cons p ps =>
    rw [List.forall_mem_cons] at h
    cases ps with
    | nil =>
      rw [List.intercalate_singleton]
      exact h.1
    | cons q ps =>
      rw [List.intercalate_cons_cons, List.append_assoc]
      exact h.1.append _

theorem opens_items {d : Nat} {parts : List (List Char × Value)} (some : parts ≠ [])
    (h : ∀ p ∈ parts, Spells d p.1 p.2) :
    Opens (List.intercalate [','] (parts.map Prod.fst)) :=
  opens_intercalate (by simpa using some) (List.forall_mem_map.2 fun p hp => (h p hp).opens)

theorem opens_fields {parts : List SpelledField} (some : parts ≠ [])
    (named : ∀ f ∈ parts, f.IsNamed) :
    Opens (List.intercalate [','] (parts.map SpelledField.all)) :=
  opens_intercalate (by simpa using some) (List.forall_mem_map.2 fun f hf => (named f hf).opens)

/-! ### Values -/

variable {rules : Rules} {depth : Nat}

/-- Whether a spelling is read, up to space that follows it. -/
def Reads (rules : Rules) (depth : Nat) (cs : List Char) (v : Value) : Prop :=
  ∀ fuel r, Ends r → (Text.kept cs).length ≤ fuel → ∃ left, AllSpace left ∧
    value rules fuel depth (skipSpace (Text.kept cs ++ r)) = .ok (v, left ++ r)

theorem AllSpace.ends {cs r : List Char} (h : AllSpace cs) (hr : Ends r) : Ends (cs ++ r) := by
  cases cs with
  | nil => exact hr
  | cons c cs =>
    refine ends_cons ?_ _
    have space := h c List.mem_cons_self
    simp only [isSpace, Bool.or_eq_true, decide_eq_true_eq] at space
    rcases space with ((rfl | rfl) | rfl) | rfl <;> decide

theorem Reads.padded {before cs after : List Char} {v : Value} (hbefore : AllSpace before)
    (h : Reads rules depth cs v) (hafter : AllSpace after) :
    Reads rules depth (before ++ cs ++ after) v := by
  intro fuel r hr enough
  rw [Text.kept_append, Text.kept_append, hbefore.kept, hafter.kept] at enough ⊢
  rw [List.length_append, List.length_append] at enough
  obtain ⟨left, hleft, hread⟩ := h fuel (after ++ r) (hafter.ends hr) (by omega)
  refine ⟨left ++ after, hleft.append hafter, ?_⟩
  rw [List.append_assoc, List.append_assoc, hbefore.skipSpace_append, hread, List.append_assoc]

theorem reads_text (policy : rules.halfPairs = .kept) {cs : List Char} {s : String}
    (h : SpellsText cs s) : Reads rules depth cs (.text s) := by
  obtain ⟨body, hkept, hread⟩ := h.exists_read
  intro fuel r _ enough
  rw [hkept, List.length_cons] at enough
  obtain ⟨fuel, rfl⟩ := Nat.exists_eq_add_one.2 (show 0 < fuel by omega)
  refine ⟨[], List.forall_mem_nil _, ?_⟩
  rw [hkept, List.cons_append, skipSpace_cons (by decide), value, policy, hread fuel r (by omega)]
  rfl

theorem isAscii_numberChars : IsAscii numberChars := by decide

theorem SpellsNumber.isAscii {cs : List Char} {v : Value} (h : SpellsNumber cs v) : IsAscii cs :=
  fun c hc => isAscii_numberChars c (h.subset hc)

/-- What starts with a character of a number is a word or a number. -/
theorem value_scalar (fuel : Nat) {c : Char} (h : c ∈ numberChars) (cs : List Char) :
    value rules (fuel + 1) depth (c :: cs) = scalar rules (c :: cs) := by
  have marks : numberChars.all (fun c => !(['"', '[', '\x7b'].contains c)) = true := by decide
  have plain := List.all_eq_true.1 marks c h
  simp only [Bool.not_eq_true', List.contains_eq_mem, decide_eq_false_iff_not, List.mem_cons,
    List.not_mem_nil, or_false, not_or] at plain
  obtain ⟨quote, bracket, brace⟩ := plain
  rw [value.eq_5 _ _ _ _ (by simp [quote]) (by simp [bracket]) (by simp [brace])]

theorem reads_number (free : rules.limitsFractions = false) {cs : List Char} {v : Value}
    (h : SpellsNumber cs v) : Reads rules depth cs v := by
  have kept : Text.kept cs = cs := Text.kept_of_isLow fun c hc => isLow_of_lt (h.isAscii c hc)
  have marks : numberChars.all (fun c => !isSpace c) = true := by decide
  obtain ⟨c, cs, rfl⟩ : ∃ c rest, cs = c :: rest := by
    obtain ⟨negative, d, rest, rfl, -⟩ := h.exists_digit
    cases negative <;> exact ⟨_, _, rfl⟩
  have mem : c ∈ numberChars := h.subset List.mem_cons_self
  have space : isSpace c = false := by simpa using List.all_eq_true.1 marks c mem
  intro fuel r hr enough
  have read := scalar_spelled free h hr
  rw [kept] at enough ⊢
  obtain ⟨fuel, rfl⟩ := Nat.exists_eq_add_one.2 (Nat.lt_of_lt_of_le (Nat.succ_pos _) enough)
  refine ⟨[], List.forall_mem_nil _, ?_⟩
  rw [List.cons_append] at read ⊢
  rw [skipSpace_cons space, value_scalar fuel mem, read]
  rfl

/-- A list that does not end at once is read item by item. -/
theorem value_list (fuel : Nat) {c : Char} {cs rest : List Char} (h : skipSpace cs = c :: rest)
    (hc : c ∈ openings) :
    value rules (fuel + 1) (depth + 1) ('[' :: cs) = items rules fuel depth [] (skipSpace cs) := by
  have other : c ≠ ']' := by
    rintro rfl
    exact absurd hc (by decide)
  have empty : emptyEnd? rules ']' (depth + 1) cs = .ok none := by simp [emptyEnd?, h, other]
  rw [value, empty, Nat.add_sub_cancel]

theorem value_table (fuel : Nat) {c : Char} {cs rest : List Char} (h : skipSpace cs = c :: rest)
    (hc : c ∈ openings) :
    value rules (fuel + 1) (depth + 1) ('\x7b' :: cs) =
      fields rules fuel depth [] (skipSpace cs) := by
  have other : c ≠ '\x7d' := by
    rintro rfl
    exact absurd hc (by decide)
  have empty : emptyEnd? rules '\x7d' (depth + 1) cs = .ok none := by simp [emptyEnd?, h, other]
  rw [value, empty, Nat.add_sub_cancel]

theorem items_last {cs : List Char} {v : Value} (h : Reads rules depth cs v) {fuel : Nat}
    (enough : (Text.kept cs).length ≤ fuel) (read : List Value) (r : List Char) :
    items rules (fuel + 1) depth read (skipSpace (Text.kept cs ++ ']' :: r)) =
      .ok (.list (v :: read).reverse, r) := by
  obtain ⟨left, hleft, hread⟩ := h fuel (']' :: r) (ends_cons (by decide) r) enough
  rw [items, hread]
  simp only [hleft.skipSpace_append, skipSpace_cons (show isSpace ']' = false by decide)]

theorem items_next {cs : List Char} {v : Value} (h : Reads rules depth cs v) {fuel : Nat}
    (enough : (Text.kept cs).length ≤ fuel) (read : List Value) (r : List Char) :
    items rules (fuel + 1) depth read (skipSpace (Text.kept cs ++ ',' :: r)) =
      items rules fuel depth (v :: read) (skipSpace r) := by
  obtain ⟨left, hleft, hread⟩ := h fuel (',' :: r) (ends_cons (by decide) r) enough
  rw [items, hread]
  simp only [hleft.skipSpace_append, skipSpace_cons (show isSpace ',' = false by decide)]

theorem items_spelled {parts : List (List Char × Value)} (some : parts ≠ [])
    (h : ∀ p ∈ parts, Reads rules depth p.1 p.2) {fuel : Nat}
    (enough : (Text.kept (List.intercalate [','] (parts.map Prod.fst))).length < fuel)
    (read : List Value) (r : List Char) :
    items rules fuel depth read
        (skipSpace (Text.kept (List.intercalate [','] (parts.map Prod.fst)) ++ ']' :: r)) =
      .ok (.list (read.reverse ++ parts.map Prod.snd), r) := by
  induction parts generalizing fuel read with
  | nil => exact absurd rfl some
  | cons p parts ih =>
    obtain ⟨fuel, rfl⟩ := Nat.exists_eq_add_one.2 (Nat.zero_lt_of_lt enough)
    rw [List.forall_mem_cons] at h
    cases parts with
    | nil =>
      rw [List.map_cons, List.map_nil, List.intercalate_singleton] at enough ⊢
      rw [items_last h.1 (by omega), List.reverse_cons]
      rfl
    | cons q parts =>
      rw [List.map_cons, List.map_cons, Text.kept_intercalate_cons_cons (by decide),
        ← List.map_cons] at enough ⊢
      rw [List.length_append, List.length_cons] at enough
      have rest := ih (by simp) h.2 (show _ < fuel by omega) (p.2 :: read)
      rw [List.append_assoc, List.cons_append, items_next h.1 (by omega), rest]
      simp

/-- A field is a quote, what is read back as its name, a colon and its value. -/
theorem SpelledField.IsNamed.exists_read {f : SpelledField} (named : f.IsNamed) :
    ∃ body, body.length + (Text.kept f.chars).length < (Text.kept f.all).length ∧
      (∀ fuel r, body.length ≤ fuel → textAfter? .kept fuel [] (body ++ r) = some (f.key, r)) ∧
      ∀ r, skipSpace (Text.kept f.all ++ r) =
        '"' :: (body ++ (f.after ++ ':' :: (Text.kept f.chars ++ r))) := by
  obtain ⟨body, hkept, hname⟩ := named.name.exists_read
  have all : Text.kept f.all =
      f.before ++ '"' :: (body ++ (f.after ++ ':' :: Text.kept f.chars)) := by
    rw [SpelledField.all, Text.kept_append, Text.kept_append, Text.kept_append,
      Text.kept_cons_of_isLow (by decide), named.before.kept, named.after.kept, hkept]
    simp
  refine ⟨body, ?_, hname, fun r => ?_⟩
  · rw [all]
    simp only [List.length_append, List.length_cons]
    omega
  · rw [all, List.append_assoc, named.before.skipSpace_append, List.cons_append,
      skipSpace_cons (by decide)]
    simp

section Fields

variable {f : SpelledField} (named : f.IsNamed) (policy : rules.halfPairs = .kept) {fuel : Nat}
  (enough : (Text.kept f.all).length ≤ fuel) (read : List (String × Value)) (r : List Char)

include named policy enough

theorem fields_last (h : Reads rules depth f.chars f.value) :
    fields rules (fuel + 1) depth read (skipSpace (Text.kept f.all ++ '\x7d' :: r)) =
      .ok (.table (Mapping.ofPairs ((f.key, f.value) :: read).reverse), r) := by
  obtain ⟨body, short, hname, hall⟩ := named.exists_read
  obtain ⟨left, hleft, hread⟩ := h fuel ('\x7d' :: r) (ends_cons (by decide) r) (by omega)
  rw [hall, fields, policy, hname fuel _ (by omega)]
  simp only [named.after.skipSpace_append, skipSpace_cons (show isSpace ':' = false by decide),
    hread, hleft.skipSpace_append, skipSpace_cons (show isSpace '\x7d' = false by decide)]

theorem fields_next (h : Reads rules depth f.chars f.value) :
    fields rules (fuel + 1) depth read (skipSpace (Text.kept f.all ++ ',' :: r)) =
      fields rules fuel depth ((f.key, f.value) :: read) (skipSpace r) := by
  obtain ⟨body, short, hname, hall⟩ := named.exists_read
  obtain ⟨left, hleft, hread⟩ := h fuel (',' :: r) (ends_cons (by decide) r) (by omega)
  rw [hall, fields, policy, hname fuel _ (by omega)]
  simp only [named.after.skipSpace_append, skipSpace_cons (show isSpace ':' = false by decide),
    hread, hleft.skipSpace_append, skipSpace_cons (show isSpace ',' = false by decide)]

theorem fields_refused {e : ReadFault}
    (h : value rules fuel depth (skipSpace (Text.kept f.chars)) = .error e) :
    fields rules (fuel + 1) depth read (skipSpace (Text.kept f.all)) = .error e := by
  obtain ⟨body, short, hname, hall⟩ := named.exists_read
  have whole := hall []
  rw [List.append_nil, List.append_nil] at whole
  rw [whole, fields, policy, hname fuel _ (by omega)]
  simp only [named.after.skipSpace_append, skipSpace_cons (show isSpace ':' = false by decide), h]

end Fields

theorem fields_spelled (policy : rules.halfPairs = .kept) {parts : List SpelledField}
    (some : parts ≠ []) (named : ∀ f ∈ parts, f.IsNamed)
    (h : ∀ f ∈ parts, Reads rules depth f.chars f.value) {fuel : Nat}
    (enough : (Text.kept (List.intercalate [','] (parts.map SpelledField.all))).length < fuel)
    (read : List (String × Value)) (r : List Char) :
    fields rules fuel depth read
        (skipSpace (Text.kept (List.intercalate [','] (parts.map SpelledField.all)) ++
          '\x7d' :: r)) =
      .ok (.table (Mapping.ofPairs (read.reverse ++ parts.map fun f => (f.key, f.value))), r) := by
  induction parts generalizing fuel read with
  | nil => exact absurd rfl some
  | cons f parts ih =>
    obtain ⟨fuel, rfl⟩ := Nat.exists_eq_add_one.2 (Nat.zero_lt_of_lt enough)
    rw [List.forall_mem_cons] at h named
    cases parts with
    | nil =>
      rw [List.map_cons, List.map_nil, List.intercalate_singleton] at enough ⊢
      rw [fields_last named.1 policy (by omega) read r h.1, List.reverse_cons]
      rfl
    | cons g parts =>
      rw [List.map_cons, List.map_cons, Text.kept_intercalate_cons_cons (by decide),
        ← List.map_cons] at enough ⊢
      rw [List.length_append, List.length_cons] at enough
      have rest := ih (by simp) named.2 h.2 (show _ < fuel by omega) ((f.key, f.value) :: read)
      rw [List.append_assoc, List.cons_append, fields_next named.1 policy (by omega) read _ h.1,
        rest]
      simp

/-- What is read between two marks is read with them. -/
theorem reads_enclosed {o c : Char} (opening : o ∈ openings) (low : Text.isLow c = true)
    {inner : List Char} {v : Value}
    (h : ∀ fuel r, (Text.kept inner).length < fuel →
      value rules (fuel + 1) depth (o :: (Text.kept inner ++ c :: r)) = .ok (v, r)) :
    Reads rules depth (o :: (inner ++ [c])) v := by
  have kept : Text.kept (o :: (inner ++ [c])) = o :: (Text.kept inner ++ [c]) := by
    rw [Text.kept_cons_of_isLow (isLow_of_mem_openings opening), Text.kept_append,
      Text.kept_cons_of_isLow low, Text.kept_nil]
  intro fuel r _ enough
  rw [kept, List.length_cons, List.length_append, List.length_singleton] at enough
  obtain ⟨fuel, rfl⟩ := Nat.exists_eq_add_one.2 (show 0 < fuel by omega)
  refine ⟨[], List.forall_mem_nil _, ?_⟩
  rw [kept, List.cons_append, List.append_assoc,
    skipSpace_cons (isSpace_of_mem_openings opening), List.singleton_append, h fuel r (by omega)]
  rfl

theorem emptyEnd?_gap {close : Char} (h : isSpace close = false) {gap : List Char}
    (hgap : AllSpace gap) (r : List Char) :
    emptyEnd? rules close (depth + 1) (gap ++ close :: r) = .ok (some r) := by
  simp [emptyEnd?, hgap.skipSpace_append, skipSpace_cons h]

/-- Every spelling is read when no more lists and tables are inside each other than may be. -/
theorem reads_spelled (policy : rules.halfPairs = .kept) (free : rules.limitsFractions = false)
    {d : Nat} {cs : List Char} {v : Value} (h : Spells d cs v) (shallow : d ≤ depth) :
    Reads rules depth cs v := by
  induction h generalizing depth with
  | null d =>
    intro fuel r _ enough
    obtain ⟨fuel, rfl⟩ := Nat.exists_eq_add_one.2 (Nat.lt_of_lt_of_le (by decide) enough)
    exact ⟨[], List.forall_mem_nil _, rfl⟩
  | true d =>
    intro fuel r _ enough
    obtain ⟨fuel, rfl⟩ := Nat.exists_eq_add_one.2 (Nat.lt_of_lt_of_le (by decide) enough)
    exact ⟨[], List.forall_mem_nil _, rfl⟩
  | false d =>
    intro fuel r _ enough
    obtain ⟨fuel, rfl⟩ := Nat.exists_eq_add_one.2 (Nat.lt_of_lt_of_le (by decide) enough)
    exact ⟨[], List.forall_mem_nil _, rfl⟩
  | number d h => exact reads_number free h
  | text d h => exact reads_text policy h
  | padded hbefore h hafter ih => exact (ih shallow).padded hbefore hafter
  | emptyList d h =>
    obtain ⟨depth, rfl⟩ := Nat.exists_eq_add_one.2 (show 0 < depth by omega)
    refine reads_enclosed (by decide) (by decide) fun fuel r enough => ?_
    rw [h.kept, value, emptyEnd?_gap (by decide) h]
  | @list d parts some h ih =>
    obtain ⟨depth, rfl⟩ := Nat.exists_eq_add_one.2 (show 0 < depth by omega)
    have items : ∀ p ∈ parts, Reads rules depth p.1 p.2 := fun p hp => ih p hp (by omega)
    have opens := opens_items some h
    refine reads_enclosed (by decide) (by decide) fun fuel r enough => ?_
    obtain ⟨c, rest, hc, hskip⟩ := opens.skipSpace (']' :: r)
    rw [value_list fuel hskip hc, items_spelled some items enough]
    rfl
  | emptyTable d h =>
    obtain ⟨depth, rfl⟩ := Nat.exists_eq_add_one.2 (show 0 < depth by omega)
    refine reads_enclosed (by decide) (by decide) fun fuel r enough => ?_
    rw [h.kept, value, emptyEnd?_gap (by decide) h]
  | @table d parts some named h ih =>
    obtain ⟨depth, rfl⟩ := Nat.exists_eq_add_one.2 (show 0 < depth by omega)
    have values : ∀ f ∈ parts, Reads rules depth f.chars f.value := fun f hf => ih f hf (by omega)
    have opens := opens_fields some named
    refine reads_enclosed (by decide) (by decide) fun fuel r enough => ?_
    obtain ⟨c, rest, hc, hskip⟩ := opens.skipSpace ('\x7d' :: r)
    rw [value_table fuel hskip hc, fields_spelled policy some named values enough]
    rfl

/-- A document is read from each of its spellings. -/
theorem document_spelled {d : Nat} {cs : List Char} {v : Value} (h : Spells d cs v)
    (shallow : d ≤ documentRules.maxDepth) : document (String.ofList (Text.kept cs)) = .ok v := by
  have reads : Reads documentRules documentRules.maxDepth cs v := reads_spelled rfl rfl h shallow
  obtain ⟨left, hleft, hread⟩ := reads (2 * (Text.kept cs).length + 2) [] ends_nil (by omega)
  have rest : skipSpace (left ++ []) = [] := hleft.skipSpace_append []
  rw [List.append_nil] at hread
  rw [document, Json.read, String.toList_ofList, wholeValue, hread]
  simp only [rest, List.isEmpty_nil, if_true]

end UnusedDeps.Json
