import UnusedDeps.Proofs.Json.Spelling
import UnusedDeps.Proofs.Text.Lines

/-!
# Spellings that are cut

Outside its texts a spelling is made of ASCII characters. What stands in front of
another character is therefore cut inside a text, and the reader refuses it. Lines
are cut like that at the three line ends that may stand in a text. Main statements:
`document_cut` and `mem_bareEnds`.
-/

namespace UnusedDeps.Json

/-! ### Where a character stands -/

/-- An element of two lists that are put together stands in the first or in the second one. -/
theorem append_eq_append_cons {α : Type} {as bs p s : List α} {c : α}
    (h : as ++ bs = p ++ c :: s) :
    (∃ s', as = p ++ c :: s') ∨ ∃ p', p = as ++ p' ∧ bs = p' ++ c :: s := by
  rcases List.append_eq_append_iff.1 h with ⟨p', hp, hbs⟩ | ⟨cs, has, hcs⟩
  · exact .inr ⟨p', hp, hbs⟩
  · cases cs with
    | nil => exact .inr ⟨[], by simpa using has.symm, by simpa using hcs.symm⟩
    | cons d cs =>
      cases hcs
      exact .inl ⟨cs, has⟩

section Wide

variable {c : Char} (wide : 0x80 ≤ c.toNat)

include wide

theorem not_ascii {cs p s : List Char} (h : IsAscii cs) : cs ≠ p ++ c :: s := by
  rintro rfl
  have low := h c (by simp)
  omega

theorem cut_cons {d : Char} (h : d.toNat < 0x80) {cs p s : List Char}
    (split : d :: cs = p ++ c :: s) : ∃ p', p = d :: p' ∧ cs = p' ++ c :: s := by
  cases p with
  | nil =>
    cases split
    omega
  | cons e p =>
    cases split
    exact ⟨p, rfl, rfl⟩

theorem cut_front {as bs p s : List Char} (h : IsAscii as)
    (split : as ++ bs = p ++ c :: s) : ∃ p', p = as ++ p' ∧ bs = p' ++ c :: s :=
  (append_eq_append_cons split).resolve_left fun ⟨_, has⟩ => not_ascii wide h has

theorem cut_back {as bs p s : List Char} (h : IsAscii bs)
    (split : as ++ bs = p ++ c :: s) : ∃ s', as = p ++ c :: s' :=
  (append_eq_append_cons split).resolve_right fun ⟨_, _, hbs⟩ => not_ascii wide h hbs

theorem cut_enclosed {o d : Char} (ho : o.toNat < 0x80) (hd : d.toNat < 0x80)
    {inner p s : List Char} (split : o :: (inner ++ [d]) = p ++ c :: s) :
    ∃ p' s', p = o :: p' ∧ inner = p' ++ c :: s' := by
  obtain ⟨p', hp, rest⟩ := cut_cons wide ho split
  obtain ⟨s', hinner⟩ := cut_back wide (List.forall_mem_singleton.2 hd) rest
  exact ⟨p', s', hp, hinner⟩

end Wide

theorem toNat_lt_of_isSpace {c : Char} (h : isSpace c = true) : c.toNat < 0x80 := by
  simp only [isSpace, Bool.or_eq_true, decide_eq_true_eq] at h
  rcases h with ((rfl | rfl) | rfl) | rfl <;> decide

theorem AllSpace.isAscii {cs : List Char} (h : AllSpace cs) : IsAscii cs :=
  fun c hc => toNat_lt_of_isSpace (h c hc)

/-! ### Texts -/

/-- A code point is spelled by one character or in ASCII. -/
theorem SpellsCode.ascii {cs : List Char} {n : Nat} (h : SpellsCode cs n) :
    (∃ c, cs = [c]) ∨ IsAscii cs := by
  cases h with
  | bare h => exact .inl ⟨_, rfl⟩
  | short h =>
    have each : ∀ e ∈ shortEscapes, e.1.toNat < 0x80 := by decide
    exact .inr (by simpa [IsAscii] using each _ h)
  | unit h =>
    refine .inr ?_
    simp only [IsAscii, List.forall_mem_cons]
    exact ⟨by decide, by decide, h.isAscii⟩
  | pair h h' opens closes =>
    refine .inr ?_
    simp only [IsAscii, List.forall_mem_cons, List.forall_mem_append]
    exact ⟨by decide, by decide, h.isAscii, by decide, by decide, h'.isAscii⟩

theorem StartsClosing.append {cs : List Char} (h : StartsClosing cs) (r : List Char) :
    StartsClosing (cs ++ r) := by
  obtain ⟨ds, n, rest, rfl, hunit, closes⟩ := h
  exact ⟨ds, n, rest ++ r, by simp, hunit, closes⟩

/-- Code points can be cut in front of a character that is no ASCII. -/
theorem SpellsCodes.cut {cs : List Char} {ns : List Nat} (h : SpellsCodes cs ns) {c : Char}
    (wide : 0x80 ≤ c.toNat) {p s : List Char} (split : cs = p ++ c :: s) :
    ∃ ms, SpellsCodes p ms := by
  induction h generalizing p with
  | nil => simp at split
  | @cons cs rest n ns first others apart ih =>
    rcases append_eq_append_cons split with ⟨s', hcs⟩ | ⟨p', rfl, hrest⟩
    · rcases first.ascii with ⟨d, rfl⟩ | ascii
      · have front : p = [] := by
          cases p with
          | nil => rfl
          | cons e p => simp at hcs
        exact ⟨[], front ▸ .nil⟩
      · exact absurd hcs (not_ascii wide ascii)
    · obtain ⟨ms, hms⟩ := ih hrest
      refine ⟨n :: ms, .cons first hms fun opens closing => apart opens ?_⟩
      rw [hrest]
      exact closing.append _

/-- A text without its closing quote is not read. -/
theorem textAfter?_open {cs : List Char} {ns : List Nat} (h : SpellsCodes cs ns) {fuel : Nat}
    (enough : (Text.kept cs).length ≤ fuel) (read : List Char) :
    textAfter? .kept fuel read (Text.kept cs) = none := by
  have nothing : NotClosing [] := fun m r next => nomatch next
  obtain ⟨k, hk, step⟩ := textAfter?_spelled h nothing
  have hfuel : fuel = fuel - k + k := by omega
  have rest := step (fuel - k) read
  rw [List.append_nil, ← hfuel] at rest
  rw [rest]
  cases fuel - k <;> rfl

/-- What is left of a text that is cut starts with a quote and has no other one. -/
theorem SpellsText.cut {cs : List Char} {t : String} (h : SpellsText cs t) {c : Char}
    (wide : 0x80 ≤ c.toNat) {p s : List Char} (split : cs = p ++ c :: s) :
    ∃ body, Text.kept p = '"' :: body ∧ ∀ fuel, body.length ≤ fuel →
      textAfter? .kept fuel [] body = none := by
  cases h with
  | quoted h =>
    obtain ⟨p', s', rfl, hinner⟩ := cut_enclosed wide (by decide) (by decide) split
    obtain ⟨ms, hms⟩ := h.cut wide hinner
    refine ⟨Text.kept p', Text.kept_cons_of_isLow (by decide) p', fun fuel enough => ?_⟩
    exact textAfter?_open hms enough []

/-! ### Values -/

theorem Opens.cut {cs : List Char} (h : Opens cs) {c : Char} (wide : 0x80 ≤ c.toNat)
    {p s : List Char} (split : cs = p ++ c :: s) : Opens p := by
  obtain ⟨space, d, rest, rfl, hspace, hd⟩ := h
  obtain ⟨p', rfl, hrest⟩ := cut_front wide hspace.isAscii split
  obtain ⟨p'', rfl, -⟩ := cut_cons wide (isAscii_openings d hd) hrest
  exact ⟨space, d, p'', rfl, hspace, hd⟩

variable {rules : Rules} {depth : Nat}

/-- Whether characters are refused at their end. An opening mark takes two steps, and there is no
closing mark that pays for one. -/
def Refuses (rules : Rules) (depth : Nat) (cs : List Char) : Prop :=
  ∀ fuel, 2 * (Text.kept cs).length ≤ fuel →
    value rules fuel depth (skipSpace (Text.kept cs)) = .error .notJson

/-- Whether what stands in front of a character that is no ASCII is refused. -/
def RefusesCut (rules : Rules) (depth : Nat) (cs : List Char) : Prop :=
  ∀ p c s, cs = p ++ c :: s → 0x80 ≤ c.toNat → Refuses rules depth p

theorem refusesCut_text (policy : rules.halfPairs = .kept) {cs : List Char} {t : String}
    (h : SpellsText cs t) : RefusesCut rules depth cs := by
  intro p c s split wide fuel enough
  obtain ⟨body, hkept, hread⟩ := h.cut wide split
  rw [hkept, List.length_cons] at enough
  obtain ⟨fuel, rfl⟩ := Nat.exists_eq_add_one.2 (show 0 < fuel by omega)
  rw [hkept, skipSpace_cons (by decide), value, policy, hread fuel (by omega)]
  rfl

theorem items_cut {c : Char} (wide : 0x80 ≤ c.toNat) {parts : List (List Char × Value)}
    (reads : ∀ q ∈ parts, Reads rules depth q.1 q.2)
    (refuses : ∀ q ∈ parts, RefusesCut rules depth q.1) {p s : List Char}
    (split : List.intercalate [','] (parts.map Prod.fst) = p ++ c :: s) {fuel : Nat}
    (enough : 2 * (Text.kept p).length < fuel) (read : List Value) :
    items rules fuel depth read (skipSpace (Text.kept p)) = .error .notJson := by
  obtain ⟨fuel, rfl⟩ := Nat.exists_eq_add_one.2 (Nat.zero_lt_of_lt enough)
  induction parts generalizing p fuel read with
  | nil => simp [List.intercalate] at split
  | cons q parts ih =>
    rw [List.forall_mem_cons] at reads refuses
    -- The first item is cut, or it is read and one after it is cut.
    have first {s' : List Char} (hq : q.1 = p ++ c :: s') :
        items rules (fuel + 1) depth read (skipSpace (Text.kept p)) = .error .notJson := by
      have refused := refuses.1 p c s' hq wide fuel (by omega)
      rw [items, refused]
    cases parts with
    | nil =>
      rw [List.map_cons, List.map_nil, List.intercalate_singleton] at split
      exact first split
    | cons q' parts =>
      rw [List.map_cons, List.map_cons, List.intercalate_cons_cons, ← List.map_cons,
        List.append_assoc, List.singleton_append] at split
      rcases append_eq_append_cons split with ⟨s', hq⟩ | ⟨p', rfl, after⟩
      · exact first hq
      · obtain ⟨p'', rfl, hrest⟩ := cut_cons wide (by decide) after
        rw [Text.kept_append, Text.kept_cons_of_isLow (by decide)] at enough ⊢
        rw [List.length_append, List.length_cons] at enough
        obtain ⟨fuel, rfl⟩ := Nat.exists_eq_add_one.2 (show 0 < fuel by omega)
        rw [items_next reads.1 (by omega)]
        exact ih reads.2 refuses.2 hrest (q.2 :: read) fuel (by omega)

/-- A field is cut in its name or in its value. -/
theorem fields_cut_first (policy : rules.halfPairs = .kept) {c : Char} (wide : 0x80 ≤ c.toNat)
    {f : SpelledField} (named : f.IsNamed) (refuses : RefusesCut rules depth f.chars)
    {p s : List Char} (split : f.all = p ++ c :: s) {fuel : Nat}
    (enough : 2 * (Text.kept p).length ≤ fuel) (read : List (String × Value)) :
    fields rules (fuel + 1) depth read (skipSpace (Text.kept p)) = .error .notJson := by
  rw [SpelledField.all] at split
  rcases append_eq_append_cons split with ⟨s', front⟩ | ⟨p', rfl, back⟩
  · obtain ⟨s', front⟩ := cut_back wide named.after.isAscii front
    obtain ⟨p', rfl, hname⟩ := cut_front wide named.before.isAscii front
    obtain ⟨body, hkept, hread⟩ := named.name.cut wide hname
    rw [Text.kept_append, named.before.kept, hkept] at enough ⊢
    rw [List.length_append, List.length_cons] at enough
    rw [named.before.skipSpace_append, skipSpace_cons (by decide), fields, policy,
      hread fuel (by omega)]
  · obtain ⟨p'', rfl, hchars⟩ := cut_cons wide (by decide) back
    -- Up to the cut this is a field with another value.
    obtain ⟨cut, named', hcut, hall⟩ : ∃ cut : SpelledField, cut.IsNamed ∧ cut.chars = p'' ∧
        cut.all = f.before ++ f.name ++ f.after ++ ':' :: p'' :=
      ⟨{ f with chars := p'' }, ⟨named.before, named.name, named.after⟩, rfl, rfl⟩
    obtain ⟨body, short, -, -⟩ := named'.exists_read
    rw [← hall] at enough ⊢
    have refused := refuses p'' c s hchars wide fuel (by rw [← hcut]; omega)
    rw [← hcut] at refused
    exact fields_refused named' policy (by omega) read refused

theorem fields_cut (policy : rules.halfPairs = .kept) {c : Char} (wide : 0x80 ≤ c.toNat)
    {parts : List SpelledField} (named : ∀ f ∈ parts, f.IsNamed)
    (reads : ∀ f ∈ parts, Reads rules depth f.chars f.value)
    (refuses : ∀ f ∈ parts, RefusesCut rules depth f.chars) {p s : List Char}
    (split : List.intercalate [','] (parts.map SpelledField.all) = p ++ c :: s) {fuel : Nat}
    (enough : 2 * (Text.kept p).length < fuel) (read : List (String × Value)) :
    fields rules fuel depth read (skipSpace (Text.kept p)) = .error .notJson := by
  obtain ⟨fuel, rfl⟩ := Nat.exists_eq_add_one.2 (Nat.zero_lt_of_lt enough)
  induction parts generalizing p fuel read with
  | nil => simp [List.intercalate] at split
  | cons f parts ih =>
    rw [List.forall_mem_cons] at named reads refuses
    cases parts with
    | nil =>
      rw [List.map_cons, List.map_nil, List.intercalate_singleton] at split
      exact fields_cut_first policy wide named.1 refuses.1 split (by omega) read
    | cons g parts =>
      rw [List.map_cons, List.map_cons, List.intercalate_cons_cons, ← List.map_cons,
        List.append_assoc, List.singleton_append] at split
      rcases append_eq_append_cons split with ⟨s', hf⟩ | ⟨p', rfl, after⟩
      · exact fields_cut_first policy wide named.1 refuses.1 hf (by omega) read
      · obtain ⟨p'', rfl, hrest⟩ := cut_cons wide (by decide) after
        rw [Text.kept_append, Text.kept_cons_of_isLow (by decide)] at enough ⊢
        rw [List.length_append, List.length_cons] at enough
        obtain ⟨fuel, rfl⟩ := Nat.exists_eq_add_one.2 (show 0 < fuel by omega)
        rw [fields_next named.1 policy (by omega) read _ reads.1]
        exact ih named.2 reads.2 refuses.2 hrest ((f.key, f.value) :: read) fuel (by omega)

theorem RefusesCut.padded {before cs after : List Char} (hbefore : AllSpace before)
    (h : RefusesCut rules depth cs) (hafter : AllSpace after) :
    RefusesCut rules depth (before ++ cs ++ after) := by
  intro p c s split wide
  obtain ⟨s', front⟩ := cut_back wide hafter.isAscii split
  obtain ⟨p', rfl, hcs⟩ := cut_front wide hbefore.isAscii front
  intro fuel enough
  rw [Text.kept_append, hbefore.kept] at enough ⊢
  rw [List.length_append] at enough
  rw [hbefore.skipSpace_append]
  exact h p' c s' hcs wide fuel (by omega)

/-- What is refused after an opening mark is refused with it. -/
theorem refusesCut_enclosed {o d : Char} (opening : o ∈ openings) (hd : d.toNat < 0x80)
    {inner : List Char} (h : ∀ p c s, inner = p ++ c :: s → 0x80 ≤ c.toNat →
      ∀ fuel, 2 * (Text.kept p).length < fuel →
        value rules (fuel + 1) depth (o :: Text.kept p) = .error .notJson) :
    RefusesCut rules depth (o :: (inner ++ [d])) := by
  intro p c s split wide fuel enough
  obtain ⟨p', s', rfl, hinner⟩ := cut_enclosed wide (isAscii_openings o opening) hd split
  rw [Text.kept_cons_of_isLow (isLow_of_mem_openings opening)] at enough ⊢
  rw [List.length_cons] at enough
  obtain ⟨fuel, rfl⟩ := Nat.exists_eq_add_one.2 (show 0 < fuel by omega)
  rw [skipSpace_cons (isSpace_of_mem_openings opening)]
  exact h p' c s' hinner wide fuel (by omega)

theorem refusesCut_ascii {cs : List Char} (h : IsAscii cs) : RefusesCut rules depth cs :=
  fun _ _ _ split wide => absurd split (not_ascii wide h)

theorem refusesCut_spelled (policy : rules.halfPairs = .kept)
    (free : rules.limitsFractions = false) {d : Nat} {cs : List Char} {v : Value}
    (h : Spells d cs v) (shallow : d ≤ depth) : RefusesCut rules depth cs := by
  induction h generalizing depth with
  | null d => exact refusesCut_ascii (by decide)
  | true d => exact refusesCut_ascii (by decide)
  | false d => exact refusesCut_ascii (by decide)
  | number d h => exact refusesCut_ascii h.isAscii
  | text d h => exact refusesCut_text policy h
  | padded hbefore h hafter ih => exact (ih shallow).padded hbefore hafter
  | emptyList d h =>
    exact refusesCut_enclosed (by decide) (by decide)
      fun p c s split wide => absurd split (not_ascii wide h.isAscii)
  | @list d parts some h ih =>
    obtain ⟨depth, rfl⟩ := Nat.exists_eq_add_one.2 (show 0 < depth by omega)
    have reads : ∀ q ∈ parts, Reads rules depth q.1 q.2 :=
      fun q hq => reads_spelled policy free (h q hq) (by omega)
    have refuses : ∀ q ∈ parts, RefusesCut rules depth q.1 := fun q hq => ih q hq (by omega)
    have opens := opens_items some h
    refine refusesCut_enclosed (by decide) (by decide) fun p c s split wide fuel enough => ?_
    obtain ⟨c', rest, hc, hskip⟩ := (opens.cut wide split).skipSpace []
    rw [List.append_nil] at hskip
    rw [value_list fuel hskip hc]
    exact items_cut wide reads refuses split enough []
  | emptyTable d h =>
    exact refusesCut_enclosed (by decide) (by decide)
      fun p c s split wide => absurd split (not_ascii wide h.isAscii)
  | @table d parts some named h ih =>
    obtain ⟨depth, rfl⟩ := Nat.exists_eq_add_one.2 (show 0 < depth by omega)
    have reads : ∀ f ∈ parts, Reads rules depth f.chars f.value :=
      fun f hf => reads_spelled policy free (h f hf) (by omega)
    have refuses : ∀ f ∈ parts, RefusesCut rules depth f.chars := fun f hf => ih f hf (by omega)
    have opens := opens_fields some named
    refine refusesCut_enclosed (by decide) (by decide) fun p c s split wide fuel enough => ?_
    obtain ⟨c', rest, hc, hskip⟩ := (opens.cut wide split).skipSpace []
    rw [List.append_nil] at hskip
    rw [value_table fuel hskip hc]
    exact fields_cut policy wide named reads refuses split enough []

/-- What stands in front of a character that is no ASCII is no document. -/
theorem document_cut {d : Nat} {p s : List Char} {c : Char} {v : Value}
    (h : Spells d (p ++ c :: s) v) (shallow : d ≤ documentRules.maxDepth)
    (wide : 0x80 ≤ c.toNat) : document (String.ofList (Text.kept p)) = .error .notJson := by
  have refuses : RefusesCut documentRules documentRules.maxDepth (p ++ c :: s) :=
    refusesCut_spelled rfl rfl h shallow
  have refused := refuses p c s rfl wide (2 * (Text.kept p).length + 2) (by omega)
  rw [document, Json.read, String.toList_ofList, wholeValue, refused]

/-! ### Line ends -/

/-- Whether a character is space or no control. -/
def IsGraphic (c : Char) : Prop := isSpace c = true ∨ 0x20 ≤ c.toNat

instance (c : Char) : Decidable (IsGraphic c) := inferInstanceAs (Decidable (_ ∨ _))

def AllGraphic (cs : List Char) : Prop := ∀ c ∈ cs, IsGraphic c

instance (cs : List Char) : Decidable (AllGraphic cs) := List.decidableBAll _ _

theorem SpellsUnit.isGraphic {cs : List Char} {n : Nat} (h : SpellsUnit cs n) :
    AllGraphic cs := by
  have each : ∀ d < 16, IsGraphic d.digitChar ∧ IsGraphic d.digitChar.toUpper := by decide
  have digit {c : Char} {d : Nat} (h : IsHexDigit c d) : IsGraphic c := by
    obtain ⟨low, rfl | rfl⟩ := h
    · exact (each d low).1
    · exact (each d low).2
  cases h with
  | digits ha hb hc hd =>
    simp only [AllGraphic, List.forall_mem_cons]
    exact ⟨digit ha, digit hb, digit hc, digit hd, List.forall_mem_nil _⟩

theorem SpellsCode.isGraphic {cs : List Char} {n : Nat} (h : SpellsCode cs n) :
    AllGraphic cs := by
  cases h with
  | bare h => exact List.forall_mem_singleton.2 (.inr h.2.2)
  | short h =>
    have each : ∀ e ∈ shortEscapes, IsGraphic e.1 := by decide
    simp only [AllGraphic, List.forall_mem_cons]
    exact ⟨by decide, each _ h, List.forall_mem_nil _⟩
  | unit h =>
    simp only [AllGraphic, List.forall_mem_cons]
    exact ⟨by decide, by decide, h.isGraphic⟩
  | pair h h' opens closes =>
    simp only [AllGraphic, List.forall_mem_cons, List.forall_mem_append]
    exact ⟨by decide, by decide, h.isGraphic, by decide, by decide, h'.isGraphic⟩

theorem SpellsText.isGraphic {cs : List Char} {t : String} (h : SpellsText cs t) :
    AllGraphic cs := by
  have codes {cs : List Char} {ns : List Nat} (h : SpellsCodes cs ns) : AllGraphic cs := by
    induction h with
    | nil => exact List.forall_mem_nil _
    | cons first others apart ih => exact List.forall_mem_append.2 ⟨first.isGraphic, ih⟩
  cases h with
  | quoted h =>
    simp only [AllGraphic, List.forall_mem_cons, List.forall_mem_append]
    exact ⟨by decide, codes h, by decide, List.forall_mem_nil _⟩

theorem AllSpace.isGraphic {cs : List Char} (h : AllSpace cs) : AllGraphic cs :=
  fun c hc => .inl (h c hc)

theorem SpelledField.IsNamed.isGraphic {f : SpelledField} (h : f.IsNamed)
    (value : AllGraphic f.chars) : AllGraphic f.all := by
  rw [SpelledField.all]
  simp only [AllGraphic, List.forall_mem_cons, List.forall_mem_append]
  exact ⟨⟨⟨h.before.isGraphic, h.name.isGraphic⟩, h.after.isGraphic⟩, by decide, value⟩

theorem Spells.isGraphic {d : Nat} {cs : List Char} {v : Value} (h : Spells d cs v) :
    AllGraphic cs := by
  have enclosed {o e : Char} (ho : IsGraphic o) (he : IsGraphic e) {inner : List Char}
      (h : AllGraphic inner) : AllGraphic (o :: (inner ++ [e])) := by
    simp only [AllGraphic, List.forall_mem_cons, List.forall_mem_append]
    exact ⟨ho, h, he, List.forall_mem_nil _⟩
  induction h with
  | null d => decide
  | true d => decide
  | false d => decide
  | number d h =>
    have each : AllGraphic numberChars := by decide
    exact fun c hc => each c (h.subset hc)
  | text d h => exact h.isGraphic
  | padded hbefore h hafter ih =>
    simp only [AllGraphic, List.forall_mem_append]
    exact ⟨⟨hbefore.isGraphic, ih⟩, hafter.isGraphic⟩
  | emptyList d h => exact enclosed (by decide) (by decide) h.isGraphic
  | list some h ih =>
    refine enclosed (by decide) (by decide) ?_
    exact Text.forall_mem_intercalate (by decide) (List.forall_mem_map.2 ih)
  | emptyTable d h => exact enclosed (by decide) (by decide) h.isGraphic
  | table some named h ih =>
    refine enclosed (by decide) (by decide) ?_
    exact Text.forall_mem_intercalate (by decide)
      (List.forall_mem_map.2 fun f hf => (named f hf).isGraphic (ih f hf))

/-- The characters that end a line although a text may hold them as they are. -/
def bareEnds : List Char := ['\u0085', '\u2028', '\u2029']

theorem isLineEnd_of_mem_bareEnds {c : Char} (h : c ∈ bareEnds) : Text.isLineEnd c = true := by
  have each : bareEnds.all Text.isLineEnd = true := by decide
  exact List.all_eq_true.1 each c h

/-- The line ends of a spelling on one line are those that may stand in a text. -/
theorem mem_bareEnds {d : Nat} {cs : List Char} {v : Value} (h : Spells d cs v)
    (line : Text.IsOneLine cs) {c : Char} (hc : c ∈ cs) (ends : Text.isLineEnd c = true) :
    c ∈ bareEnds := by
  have all : ∀ n ∈ [0x0a, 0x0b, 0x0c, 0x0d, 0x1c, 0x1d, 0x1e, 0x85, 0x2028, 0x2029],
      Char.ofNat n ∈ bareEnds ∨ Char.ofNat n = '\n' ∨ Char.ofNat n = '\r' ∨
        ¬IsGraphic (Char.ofNat n) := by
    decide
  have code := all c.toNat (by simpa [Text.isLineEnd] using ends)
  rw [Char.ofNat_toNat] at code
  rcases code with code | rfl | rfl | code
  · exact code
  · exact absurd hc line.lineFeed
  · exact absurd hc line.carriageReturn
  · exact absurd (h.isGraphic c hc) code

end UnusedDeps.Json
