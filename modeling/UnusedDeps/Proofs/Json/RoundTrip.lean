import UnusedDeps.Json.Document
import UnusedDeps.Proofs.Mapping
import UnusedDeps.Proofs.Text.Shown

/-!
# Values that come back from JSON

A value of faithful texts, truth values and nulls, put together by lists and by
tables with distinct names, is read back from the text that was written for it.
Such a text is made of printable ASCII characters when everything else is escaped.
Main statements: `document_print` and `isShown_print`.
-/

namespace UnusedDeps

/-- Whether a value is made of faithful texts, truth values and nulls, with at most `depth` lists
and tables inside each other. -/
inductive Value.IsFaithful : Nat → Value → Prop
  | null (depth : Nat) : IsFaithful depth .null
  | bool (depth : Nat) (b : Bool) : IsFaithful depth (.bool b)
  | text (depth : Nat) {s : String} (h : Text.IsFaithful s) : IsFaithful depth (.text s)
  | list {depth : Nat} {items : List Value} (h : ∀ v ∈ items, IsFaithful depth v) :
      IsFaithful (depth + 1) (.list items)
  | table {depth : Nat} {fields : List (String × Value)} (distinct : (fields.map (·.1)).Nodup)
      (names : ∀ f ∈ fields, Text.IsFaithful f.1) (h : ∀ f ∈ fields, IsFaithful depth f.2) :
      IsFaithful (depth + 1) (.table fields)

/-- Whether a value is made of texts that a writer keeps, truth values and nulls, with at most
`depth` lists and tables inside each other. -/
inductive Value.IsKept (charset : Json.Charset) : Nat → Value → Prop
  | null (depth : Nat) : IsKept charset depth .null
  | bool (depth : Nat) (b : Bool) : IsKept charset depth (.bool b)
  | text (depth : Nat) {s : String} (h : Json.Keeps charset s) : IsKept charset depth (.text s)
  | list {depth : Nat} {items : List Value} (h : ∀ v ∈ items, IsKept charset depth v) :
      IsKept charset (depth + 1) (.list items)
  | table {depth : Nat} {fields : List (String × Value)} (distinct : (fields.map (·.1)).Nodup)
      (names : ∀ f ∈ fields, Json.Keeps charset f.1) (h : ∀ f ∈ fields, IsKept charset depth f.2) :
      IsKept charset (depth + 1) (.table fields)

theorem Value.IsFaithful.isKept {depth : Nat} {v : Value} (h : v.IsFaithful depth)
    (charset : Json.Charset) : v.IsKept charset depth := by
  induction h with
  | null depth => exact .null depth
  | bool depth b => exact .bool depth b
  | text depth h => exact .text depth (Json.keeps_of_isFaithful h charset)
  | list _ ih => exact .list ih
  | table distinct names _ ih =>
    exact .table distinct (fun f hf => Json.keeps_of_isFaithful (names f hf) charset) ih

namespace Json

/-! ### The parts of a written value -/

theorem skipSpace_cons {c : Char} (h : isSpace c = false) (r : List Char) :
    skipSpace (c :: r) = c :: r := by
  rw [skipSpace, List.dropWhile_cons, if_neg (by simp [h])]

theorem skipSpace_space (r : List Char) : skipSpace (' ' :: r) = skipSpace r := rfl

/-- Whether characters start as a value does and not as the end of a list. -/
def StartsValue (cs : List Char) : Prop :=
  ∃ c r, cs = c :: r ∧ isSpace c = false ∧ c ≠ ']'

theorem StartsValue.append {cs : List Char} (h : StartsValue cs) (r : List Char) :
    StartsValue (cs ++ r) := by
  obtain ⟨c, cs, rfl, hspace, hend⟩ := h
  exact ⟨c, cs ++ r, rfl, hspace, hend⟩

theorem StartsValue.skipSpace {cs : List Char} (h : StartsValue cs) : skipSpace cs = cs := by
  obtain ⟨c, cs, rfl, hspace, -⟩ := h
  exact skipSpace_cons hspace cs

theorem startsValue_writtenText (charset : Charset) (s : String) :
    StartsValue (writtenText charset s) :=
  ⟨'"', _, rfl, by decide, by decide⟩

theorem startsValue_written {charset : Charset} {depth : Nat} {v : Value}
    (h : v.IsKept charset depth) : StartsValue (written charset v) := by
  cases h with
  | null => exact ⟨'n', _, rfl, by decide, by decide⟩
  | bool depth b =>
    cases b with
    | false => exact ⟨'f', _, rfl, by decide, by decide⟩
    | true => exact ⟨'t', _, rfl, by decide, by decide⟩
  | text depth h =>
    rw [written]
    exact startsValue_writtenText charset _
  | list h =>
    rw [written]
    exact ⟨'[', _, rfl, by decide, by decide⟩
  | table distinct names h =>
    rw [written]
    exact ⟨'\x7b', _, rfl, by decide, by decide⟩

theorem emptyEnd?_self (rules : Rules) {close : Char} (h : isSpace close = false) (depth : Nat)
    (r : List Char) : emptyEnd? rules close (depth + 1) (close :: r) = .ok (some r) := by
  simp [emptyEnd?, skipSpace_cons h]

theorem emptyEnd?_other (rules : Rules) {close c : Char} (h : isSpace c = false) (hc : c ≠ close)
    (depth : Nat) (r : List Char) : emptyEnd? rules close (depth + 1) (c :: r) = .ok none := by
  simp [emptyEnd?, skipSpace_cons h, hc]

/-! ### Reading back -/

/-- Whether a value is read back, whatever follows it. -/
def ComesBack (rules : Rules) (charset : Charset) (depth : Nat) (v : Value) : Prop :=
  ∀ fuel r, (written charset v).length ≤ fuel →
    value rules fuel depth (written charset v ++ r) = .ok (v, r)

variable {rules : Rules} {charset : Charset} {depth : Nat}

theorem startsValue_writtenItems {vs : List Value} (some : vs ≠ [])
    (h : ∀ v ∈ vs, StartsValue (written charset v)) (r : List Char) :
    StartsValue (writtenItems charset vs ++ r) := by
  cases vs with
  | nil => exact absurd rfl some
  | cons v vs =>
    have first := h v List.mem_cons_self
    cases vs with
    | nil => exact first.append r
    | cons w vs =>
      rw [writtenItems.eq_3 _ _ _ (by simp)]
      exact (first.append _).append r

theorem exists_writtenFields (charset : Charset) {fs : List (String × Value)} (some : fs ≠ []) :
    ∃ cs, writtenFields charset fs = '"' :: cs := by
  cases fs with
  | nil => exact absurd rfl some
  | cons f fs =>
    cases fs with
    | nil => exact ⟨_, rfl⟩
    | cons e fs => exact ⟨_, writtenFields.eq_3 _ _ _ _ (by simp)⟩

theorem items_written {vs : List Value} (some : vs ≠ [])
    (h : ∀ v ∈ vs, StartsValue (written charset v) ∧ ComesBack rules charset depth v)
    {fuel : Nat} (enough : (writtenItems charset vs).length < fuel) (read : List Value)
    (r : List Char) :
    items rules fuel depth read (writtenItems charset vs ++ ']' :: r) =
      .ok (.list (read.reverse ++ vs), r) := by
  induction vs generalizing fuel read with
  | nil => exact absurd rfl some
  | cons v vs ih =>
    obtain ⟨fuel, rfl⟩ := Nat.exists_eq_add_one.2 (Nat.zero_lt_of_lt enough)
    rw [List.forall_mem_cons] at h
    cases vs with
    | nil =>
      rw [writtenItems] at enough ⊢
      rw [items, h.1.2 _ _ (by omega)]
      simp only [skipSpace_cons (show isSpace ']' = false by decide), List.reverse_cons]
    | cons w vs =>
      rw [writtenItems.eq_3 _ _ _ (by simp)] at enough ⊢
      simp only [List.length_append, List.length_cons] at enough
      have starts := startsValue_writtenItems (by simp) (fun v hv => (h.2 v hv).1) (']' :: r)
      rw [List.append_assoc, items, h.1.2 _ _ (by omega)]
      simp only [List.cons_append, skipSpace_cons (show isSpace ',' = false by decide),
        skipSpace_space]
      rw [starts.skipSpace, ih (by simp) h.2 (by omega)]
      simp

theorem value_writtenText (kept : rules.halfPairs = .kept) {s : String} (h : Keeps charset s)
    {fuel : Nat} (enough : (writtenText charset s).length ≤ fuel) (r : List Char) :
    value rules fuel depth (writtenText charset s ++ r) = .ok (.text s, r) := by
  have quoted : 0 < (writtenText charset s).length := by simp [writtenText]
  obtain ⟨fuel, rfl⟩ := Nat.exists_eq_add_one.2 (quoted.trans_le enough)
  have back := textAfter?_writtenText h r enough
  rw [writtenText, List.cons_append, List.cons_append, value, kept, back]
  rfl

theorem fields_written (kept : rules.halfPairs = .kept) {fs : List (String × Value)}
    (some : fs ≠ []) (names : ∀ f ∈ fs, Keeps charset f.1)
    (h : ∀ f ∈ fs, StartsValue (written charset f.2) ∧ ComesBack rules charset depth f.2)
    {fuel : Nat} (enough : (writtenFields charset fs).length < fuel)
    (read : List (String × Value)) (r : List Char) :
    fields rules fuel depth read (writtenFields charset fs ++ '\x7d' :: r) =
      .ok (.table (Mapping.ofPairs (read.reverse ++ fs)), r) := by
  induction fs generalizing fuel read with
  | nil => exact absurd rfl some
  | cons f fs ih =>
    obtain ⟨name, v⟩ := f
    obtain ⟨fuel, rfl⟩ := Nat.exists_eq_add_one.2 (Nat.zero_lt_of_lt enough)
    rw [List.forall_mem_cons] at h names
    have named : Keeps charset name := names.1
    obtain ⟨starts, back⟩ : StartsValue (written charset v) ∧ ComesBack rules charset depth v := h.1
    have colon : isSpace ':' = false := by decide
    cases fs with
    | nil =>
      rw [writtenFields] at enough ⊢
      simp only [List.length_append, List.length_cons] at enough
      rw [List.append_assoc, writtenText, List.cons_append, List.cons_append, fields, kept,
        textAfter?_writtenText named _ (by omega)]
      simp only [List.cons_append, skipSpace_cons colon, skipSpace_space]
      rw [(starts.append ('\x7d' :: r)).skipSpace, back _ _ (by omega)]
      simp only [skipSpace_cons (show isSpace '\x7d' = false by decide), List.reverse_cons]
    | cons e fs =>
      rw [writtenFields.eq_3 _ _ _ _ (by simp)] at enough ⊢
      simp only [List.length_append, List.length_cons] at enough
      obtain ⟨cs, hcs⟩ := exists_writtenFields charset (show e :: fs ≠ [] by simp)
      have rest := ih (by simp) names.2 h.2 (show _ < fuel by omega) ((name, v) :: read)
      rw [hcs, List.cons_append] at rest
      rw [List.append_assoc, List.append_assoc, writtenText, List.cons_append, List.cons_append,
        fields, kept, textAfter?_writtenText named _ (by omega)]
      simp only [List.cons_append, skipSpace_cons colon, skipSpace_space]
      rw [(starts.append _).skipSpace, back _ _ (by omega)]
      simp only [skipSpace_cons (show isSpace ',' = false by decide), skipSpace_space]
      rw [hcs, List.cons_append, skipSpace_cons (show isSpace '"' = false by decide), rest]
      simp

/-- Values of texts that are kept are read back when no more of them are inside each other than may
be. -/
theorem value_written (kept : rules.halfPairs = .kept) {v : Value} {d : Nat}
    (h : v.IsKept charset d) (shallow : d ≤ depth) : ComesBack rules charset depth v := by
  induction h generalizing depth with
  | null d =>
    intro fuel r enough
    rw [written] at enough ⊢
    obtain ⟨fuel, rfl⟩ := Nat.exists_eq_add_one.2 (Nat.lt_of_lt_of_le (by decide) enough)
    rfl
  | bool d b =>
    intro fuel r enough
    rw [written] at enough ⊢
    cases b with
    | false =>
      obtain ⟨fuel, rfl⟩ := Nat.exists_eq_add_one.2 (Nat.lt_of_lt_of_le (by decide) enough)
      rfl
    | true =>
      obtain ⟨fuel, rfl⟩ := Nat.exists_eq_add_one.2 (Nat.lt_of_lt_of_le (by decide) enough)
      rfl
  | text d h =>
    intro fuel r enough
    rw [written] at enough ⊢
    exact value_writtenText kept h enough r
  | @list d vs h ih =>
    intro fuel r enough
    rw [written] at enough ⊢
    simp only [List.length_append, List.length_cons] at enough
    obtain ⟨fuel, rfl⟩ := Nat.exists_eq_add_one.2 (show 0 < fuel by omega)
    obtain ⟨depth, rfl⟩ := Nat.exists_eq_add_one.2 (show 0 < depth by omega)
    rw [List.cons_append, List.cons_append, List.append_assoc, List.singleton_append]
    cases vs with
    | nil =>
      rw [writtenItems, List.nil_append, value, emptyEnd?_self rules (by decide)]
    | cons w ws =>
      have items : ∀ v ∈ w :: ws, StartsValue (written charset v) ∧
          ComesBack rules charset depth v :=
        fun v hv => ⟨startsValue_written (h v hv), ih v hv (by omega)⟩
      have first := startsValue_writtenItems (by simp) (fun v hv => (items v hv).1) (']' :: r)
      have read := items_written (by simp) items (show _ < fuel by omega) [] r
      obtain ⟨c, cs, hcs, hspace, hend⟩ := first
      rw [hcs] at read ⊢
      rw [value, emptyEnd?_other rules hspace hend, Nat.add_sub_cancel, skipSpace_cons hspace, read,
        List.reverse_nil, List.nil_append]
  | @table d fs distinct names h ih =>
    intro fuel r enough
    rw [written] at enough ⊢
    simp only [List.length_append, List.length_cons] at enough
    obtain ⟨fuel, rfl⟩ := Nat.exists_eq_add_one.2 (show 0 < fuel by omega)
    obtain ⟨depth, rfl⟩ := Nat.exists_eq_add_one.2 (show 0 < depth by omega)
    rw [List.cons_append, List.cons_append, List.append_assoc, List.singleton_append]
    cases fs with
    | nil =>
      rw [writtenFields, List.nil_append, value, emptyEnd?_self rules (by decide)]
    | cons e es =>
      have values : ∀ f ∈ e :: es, StartsValue (written charset f.2) ∧
          ComesBack rules charset depth f.2 :=
        fun f hf => ⟨startsValue_written (h f hf), ih f hf (by omega)⟩
      obtain ⟨cs, hcs⟩ := exists_writtenFields charset (show e :: es ≠ [] by simp)
      have read := fields_written kept (by simp) names values (show _ < fuel by omega) [] r
      have quote : isSpace '"' = false := by decide
      rw [hcs, List.cons_append] at read ⊢
      rw [value, emptyEnd?_other rules quote (by decide), Nat.add_sub_cancel, skipSpace_cons quote,
        read, List.reverse_nil, List.nil_append, Mapping.ofPairs_of_nodup distinct]

/-- A document is read back from the text that was written for it, with space behind it or
without. -/
theorem document_print_append {charset : Charset} {v : Value} {d : Nat} (h : v.IsKept charset d)
    (shallow : d ≤ documentRules.maxDepth) {rest : String} (space : skipSpace rest.toList = []) :
    document (print charset v ++ rest) = .ok v := by
  have comes : ComesBack documentRules charset documentRules.maxDepth v :=
    value_written rfl h shallow
  have starts := (startsValue_written h).append rest.toList
  rw [document, Json.read, print, String.toList_append, String.toList_ofList, wholeValue,
    starts.skipSpace, comes _ _ (by rw [List.length_append]; omega)]
  simp only [space, List.isEmpty_nil, if_true]

theorem document_print (charset : Charset) {v : Value} {d : Nat} (h : v.IsFaithful d)
    (shallow : d ≤ documentRules.maxDepth) : document (print charset v) = .ok v := by
  have back := document_print_append (h.isKept charset) shallow
    (show skipSpace "".toList = [] from rfl)
  rwa [String.append_empty] at back

/-! ### Printable characters -/

/-- Whether every character is a printable ASCII character. -/
def AllShown (cs : List Char) : Prop := ∀ c ∈ cs, Text.isShownChar c = true

instance (cs : List Char) : Decidable (AllShown cs) := List.decidableBAll _ _

theorem allShown_append {cs ds : List Char} : AllShown (cs ++ ds) ↔ AllShown cs ∧ AllShown ds :=
  List.forall_mem_append

theorem allShown_cons {c : Char} {cs : List Char} :
    AllShown (c :: cs) ↔ Text.isShownChar c = true ∧ AllShown cs :=
  List.forall_mem_cons

theorem allShown_unitEscape {n : Nat} (h : n < 0x10000) : AllShown (unitEscape n) := by
  have digit : ∀ d < 16, Text.isShownChar d.digitChar = true := by decide
  rw [unitEscape, hex_four h]
  simp only [allShown_cons]
  exact ⟨by decide, by decide, digit _ (by omega), digit _ (by omega), digit _ (by omega),
    digit _ (by omega), List.forall_mem_nil _⟩

theorem allShown_codeEscape {n : Nat} (bound : n < 0x110000) : AllShown (codeEscape n) := by
  by_cases low : n < 0x10000
  · rw [codeEscape, if_pos low]
    exact allShown_unitEscape low
  · obtain ⟨first, second, hescape, opens, closes, -⟩ := exists_halves low bound
    simp only [Text.opensPair, Text.closesPair, Bool.and_eq_true, decide_eq_true_eq] at opens closes
    rw [hescape, allShown_append]
    exact ⟨allShown_unitEscape (by omega), allShown_unitEscape (by omega)⟩

theorem allShown_writtenCode {n : Nat} (bound : n < 0x110000) :
    AllShown (writtenCode .ascii n) := by
  unfold writtenCode
  split
  · decide
  split
  · decide
  split
  · decide
  split
  · decide
  split
  · decide
  split
  · decide
  split
  · decide
  split
  · rename_i plain
    simp only [Bool.and_eq_true, decide_eq_true_eq, Bool.or_eq_true, beq_iff_eq, reduceCtorEq,
      false_or] at plain
    have code : (Char.ofNat n).toNat = n := Text.toNat_ofNat_of_isValidChar (.inl (by omega))
    have shown : Text.isShownChar (Char.ofNat n) = true := by
      rw [Text.isShownChar_iff, code]
      exact plain
    obtain ⟨other, kept, -⟩ := Text.keptCode_of_shown shown
    have chars := Text.charsOf_toNat kept other
    rw [code] at chars
    rw [chars, allShown_cons]
    exact ⟨shown, List.forall_mem_nil _⟩
  · exact allShown_codeEscape bound

section Characters

variable {charset : Charset} {P : Char → Prop}

theorem forall_mem_writtenText (shown : ∀ c, Text.isShownChar c = true → P c)
    (codes : ∀ n < 0x110000, ∀ c ∈ writtenCode charset n, P c) {s : String}
    (h : Keeps charset s) : ∀ c ∈ writtenText charset s, P c := by
  obtain ⟨ns, bound, rfl⟩ := h.coded
  rw [writtenText, Text.codes_ofCodes ns bound, List.cons_append, List.forall_mem_cons,
    List.forall_mem_append, List.forall_mem_singleton]
  refine ⟨shown _ (by decide), fun c hc => ?_, shown _ (by decide)⟩
  obtain ⟨n, hn, hc⟩ := List.mem_flatMap.1 hc
  exact codes n (bound n hn) c hc

theorem forall_mem_writtenItems (shown : ∀ c, Text.isShownChar c = true → P c) {vs : List Value}
    (h : ∀ v ∈ vs, ∀ c ∈ written charset v, P c) : ∀ c ∈ writtenItems charset vs, P c := by
  induction vs with
  | nil => exact List.forall_mem_nil _
  | cons v vs ih =>
    rw [List.forall_mem_cons] at h
    cases vs with
    | nil => exact h.1
    | cons w vs =>
      rw [writtenItems.eq_3 _ _ _ (by simp), List.forall_mem_append, List.forall_mem_cons,
        List.forall_mem_cons]
      exact ⟨h.1, shown _ (by decide), shown _ (by decide), ih h.2⟩

theorem forall_mem_writtenFields (shown : ∀ c, Text.isShownChar c = true → P c)
    (codes : ∀ n < 0x110000, ∀ c ∈ writtenCode charset n, P c) {fs : List (String × Value)}
    (names : ∀ f ∈ fs, Keeps charset f.1) (h : ∀ f ∈ fs, ∀ c ∈ written charset f.2, P c) :
    ∀ c ∈ writtenFields charset fs, P c := by
  induction fs with
  | nil => exact List.forall_mem_nil _
  | cons f fs ih =>
    rw [List.forall_mem_cons] at h names
    have front : ∀ c ∈ writtenText charset f.1 ++ ':' :: ' ' :: written charset f.2, P c := by
      rw [List.forall_mem_append, List.forall_mem_cons, List.forall_mem_cons]
      exact ⟨forall_mem_writtenText shown codes names.1, shown _ (by decide), shown _ (by decide),
        h.1⟩
    cases fs with
    | nil => exact front
    | cons e fs =>
      rw [writtenFields.eq_3 _ _ _ _ (by simp), List.forall_mem_append, List.forall_mem_cons,
        List.forall_mem_cons]
      exact ⟨front, shown _ (by decide), shown _ (by decide), ih names.2 h.2⟩

/-- What holds of printable characters and of what is written for a code point holds of a whole
document. -/
theorem forall_mem_written (shown : ∀ c, Text.isShownChar c = true → P c)
    (codes : ∀ n < 0x110000, ∀ c ∈ writtenCode charset n, P c) {v : Value} {d : Nat}
    (h : v.IsKept charset d) : ∀ c ∈ written charset v, P c := by
  have all {cs : List Char} (hcs : AllShown cs) : ∀ c ∈ cs, P c := fun c hc => shown c (hcs c hc)
  induction h with
  | null d =>
    rw [written]
    exact all (by decide)
  | bool d b =>
    rw [written]
    exact all (by cases b <;> decide)
  | text d h =>
    rw [written]
    exact forall_mem_writtenText shown codes h
  | list h ih =>
    rw [written, List.cons_append, List.forall_mem_cons, List.forall_mem_append]
    exact ⟨shown _ (by decide), forall_mem_writtenItems shown ih, all (by decide)⟩
  | table distinct names h ih =>
    rw [written, List.cons_append, List.forall_mem_cons, List.forall_mem_append]
    exact ⟨shown _ (by decide), forall_mem_writtenFields shown codes names ih, all (by decide)⟩

end Characters

/-- A document in which everything else is escaped is made of printable ASCII characters. -/
theorem isShown_print {v : Value} {d : Nat} (h : v.IsFaithful d) :
    Text.IsShown (print .ascii v) := by
  rw [Text.IsShown, print, String.toList_ofList]
  exact forall_mem_written (fun _ hc => hc) (fun _ bound => allShown_writtenCode bound)
    (h.isKept .ascii)

theorem control_writtenCode {n : Nat} (bound : n < 0x110000) :
    ∀ c ∈ writtenCode .unicode n, 0x20 ≤ c.toNat := by
  have shown {cs : List Char} (h : AllShown cs) : ∀ c ∈ cs, 0x20 ≤ c.toNat :=
    fun c hc => (Text.isShownChar_iff.1 (h c hc)).1
  unfold writtenCode
  split
  · exact shown (by decide)
  split
  · exact shown (by decide)
  split
  · exact shown (by decide)
  split
  · exact shown (by decide)
  split
  · exact shown (by decide)
  split
  · exact shown (by decide)
  split
  · exact shown (by decide)
  split
  · rename_i hquote hslash _ _ _ _ _ plain
    simp only [Bool.and_eq_true, decide_eq_true_eq] at plain
    exact fun c hc => (isBare_of_mem_charsOf bound plain.1 hquote hslash hc).2.2
  · exact shown (allShown_codeEscape bound)

/-- No control stands in a document, whichever characters are escaped. -/
theorem lineFeed_notMem_print {v : Value} {d : Nat} (h : v.IsKept .unicode d) :
    '\n' ∉ (print .unicode v).toList := by
  rw [print, String.toList_ofList]
  intro control
  have bound := forall_mem_written (fun c hc => (Text.isShownChar_iff.1 hc).1)
    (fun _ bound => control_writtenCode bound) h '\n' control
  exact absurd bound (by decide)

end Json

end UnusedDeps
