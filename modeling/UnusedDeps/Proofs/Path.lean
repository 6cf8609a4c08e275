import Mathlib.Data.List.Basic
import UnusedDeps.Path.Basic

/-!
# Paths and their texts

A path comes back from its text, since its parts hold no slash. A name without a
slash denotes one part more, and the parent of the path that it leads to is where
it started. Main statements: `ofText_text` and `parent_child`.
-/

namespace UnusedDeps

namespace Text

theorem pieces_of_forall_not {p : Char → Bool} {cs : List Char} (h : ∀ c ∈ cs, p c = false) :
    pieces p cs = [cs] := by
  induction cs with
  | nil => rfl
  | cons c cs ih =>
    rw [List.forall_mem_cons] at h
    rw [pieces, h.1, if_neg (by simp), ih h.2]

theorem pieces_append_cons {p : Char → Bool} {cs : List Char} (h : ∀ c ∈ cs, p c = false)
    {c : Char} (hc : p c = true) (r : List Char) :
    pieces p (cs ++ c :: r) = cs :: pieces p r := by
  induction cs with
  | nil => rw [List.nil_append, pieces, if_pos hc]
  | cons d cs ih =>
    rw [List.forall_mem_cons] at h
    rw [List.cons_append, pieces, h.1, if_neg (by simp), ih h.2]

/-- Pieces that are put together come apart again. -/
theorem pieces_intercalate {p : Char → Bool} {sep : Char} (hsep : p sep = true)
    {parts : List (List Char)} (some : parts ≠ [])
    (h : ∀ cs ∈ parts, ∀ c ∈ cs, p c = false) :
    pieces p (List.intercalate [sep] parts) = parts := by
  induction parts with
  | nil => exact absurd rfl some
  | cons cs parts ih =>
    rw [List.forall_mem_cons] at h
    cases parts with
    | nil =>
      rw [List.intercalate_singleton]
      exact pieces_of_forall_not h.1
    | cons ds parts =>
      rw [List.intercalate_cons_cons, List.append_assoc, List.singleton_append,
        pieces_append_cons h.1 hsep, ih (by simp) h.2]

end Text

namespace Path

theorem ext {p q : Path} (anchor : p.anchor = q.anchor) (parts : p.parts = q.parts) : p = q := by
  cases p
  cases q
  cases anchor
  cases parts
  rfl

theorem isPathPart_iff {s : String} :
    isPathPart s = true ↔ s ≠ "" ∧ s ≠ "." ∧ '/' ∉ s.toList := by
  simp [isPathPart, and_assoc]

/-! ### The text of a path -/

/-- The characters of parts with slashes between them. -/
def joinedParts (parts : List String) : List Char :=
  List.intercalate ['/'] (parts.map String.toList)

theorem toList_text (p : Path) (h : p.anchor ≠ .relative ∨ p.parts ≠ []) :
    p.text.toList = p.anchor.text.toList ++ joinedParts p.parts := by
  have placed : ¬(p.anchor = .relative ∧ p.parts = []) := by
    rintro ⟨relative, bare⟩
    exact h.elim (· relative) (· bare)
  have hslash : "/".toList = ['/'] := rfl
  rw [text, if_neg (by simpa using placed), String.toList_append, String.toList_intercalate, hslash,
    joinedParts]

theorem notMem_of_isPathPart {s : String} (h : isPathPart s = true) :
    ∀ c ∈ s.toList, (c == '/') = false := by
  intro c hc
  have hne : c ≠ '/' := fun he => (isPathPart_iff.1 h).2.2 (he ▸ hc)
  simpa using hne

theorem head?_joinedParts {parts : List String} (h : ∀ s ∈ parts, isPathPart s = true) :
    (joinedParts parts).head? ≠ some '/' := by
  cases parts with
  | nil => simp [joinedParts, List.intercalate_nil]
  | cons s parts =>
    have hs := h s List.mem_cons_self
    have slashes := notMem_of_isPathPart hs
    have some : s.toList ≠ [] := by simpa using (isPathPart_iff.1 hs).1
    obtain ⟨c, cs, hcs⟩ := List.exists_cons_of_ne_nil some
    have hc : c ≠ '/' := by simpa using slashes c (by simp [hcs])
    cases parts with
    | nil => simpa [joinedParts, List.intercalate_singleton, hcs] using hc
    | cons t parts => simpa [joinedParts, List.intercalate_cons_cons, hcs] using hc

theorem pieces_joinedParts {parts : List String} (h : ∀ s ∈ parts, isPathPart s = true) :
    ((Text.pieces (· == '/') (joinedParts parts)).map String.ofList).filter isPathPart = parts := by
  cases parts with
  | nil => rfl
  | cons s parts =>
    have apart : ∀ cs ∈ (s :: parts).map String.toList, ∀ c ∈ cs, (c == '/') = false := by
      intro cs hcs
      obtain ⟨t, ht, rfl⟩ := List.mem_map.1 hcs
      exact notMem_of_isPathPart (h t ht)
    rw [joinedParts, Text.pieces_intercalate (by rfl) (by simp) apart, List.map_map,
      Function.comp_def]
    simp only [String.ofList_toList, List.map_id']
    exact List.filter_eq_self.2 h

/-- The parts that a text gives which is that of a path. -/
theorem parts_ofText_anchored (a : Anchor) {parts : List String}
    (h : ∀ s ∈ parts, isPathPart s = true) :
    ((Text.pieces (· == '/') (a.text.toList ++ joinedParts parts)).map String.ofList).filter
      isPathPart = parts := by
  have slash (cs : List Char) : Text.pieces (· == '/') ('/' :: cs) =
      [] :: Text.pieces (· == '/') cs := rfl
  have empty : isPathPart (String.ofList []) = false := by decide
  cases a with
  | relative => exact pieces_joinedParts h
  | root =>
    have hroot : Anchor.root.text.toList = ['/'] := rfl
    rw [hroot, List.singleton_append, slash, List.map_cons, List.filter_cons, empty, if_neg (by simp),
      pieces_joinedParts h]
  | doubleRoot =>
    have hroot : Anchor.doubleRoot.text.toList = ['/', '/'] := rfl
    rw [hroot, List.cons_append, List.singleton_append, slash, slash, List.map_cons, List.map_cons,
      List.filter_cons, empty, if_neg (by simp), List.filter_cons, empty, if_neg (by simp),
      pieces_joinedParts h]

theorem anchorOf_anchored (a : Anchor) {cs : List Char} (h : cs.head? ≠ some '/') :
    anchorOf (a.text.toList ++ cs) = a := by
  have relative : anchorOf cs = .relative := by
    unfold anchorOf
    split <;> simp_all
  have hroot : Anchor.root.text.toList = ['/'] := rfl
  have hdouble : Anchor.doubleRoot.text.toList = ['/', '/'] := rfl
  cases a with
  | relative => exact relative
  | root =>
    rw [hroot, List.singleton_append]
    unfold anchorOf
    split <;> simp_all
  | doubleRoot =>
    rw [hdouble, List.cons_append, List.singleton_append]
    cases cs with
    | nil => rfl
    | cons c cs =>
      have hc : c ≠ '/' := by simpa using h
      simp [anchorOf, hc]

/-- A path comes back from its text. -/
theorem ofText_text (p : Path) : ofText p.text = p := by
  by_cases h : p.anchor = .relative ∧ p.parts = []
  · have dot : p.text = "." := by rw [text, if_pos (by simpa using h)]
    refine ext ?_ ?_
    · rw [dot, h.1]
      rfl
    · rw [dot, h.2]
      decide
  · have chars := toList_text p (by tauto)
    refine ext ?_ ?_
    · rw [ofText, chars]
      exact anchorOf_anchored p.anchor (head?_joinedParts p.parts_ok)
    · show ((Text.pieces (· == '/') p.text.toList).map String.ofList).filter isPathPart = p.parts
      rw [chars]
      exact parts_ofText_anchored p.anchor p.parts_ok

theorem text_ne_empty (p : Path) : p.text ≠ "" := by
  intro h
  have back := ofText_text p
  rw [h] at back
  rw [← back] at h
  exact absurd h (by decide)

/-! ### One part further -/

theorem ofText_part {name : String} (h : isPathPart name = true) :
    (ofText name).anchor = .relative ∧ (ofText name).parts = [name] := by
  have single : joinedParts [name] = name.toList := List.intercalate_singleton
  have only : ∀ s ∈ [name], isPathPart s = true := by simpa using h
  have head := head?_joinedParts only
  have parts := pieces_joinedParts only
  rw [single] at head parts
  exact ⟨anchorOf_anchored .relative head, parts⟩

theorem anchor_child (p : Path) {name : String} (h : isPathPart name = true) :
    (p.child name).anchor = p.anchor := by
  rw [child, join, if_pos (ofText_part h).1]

theorem parts_child (p : Path) {name : String} (h : isPathPart name = true) :
    (p.child name).parts = p.parts ++ [name] := by
  rw [child, join, if_pos (ofText_part h).1]
  exact congrArg (p.parts ++ ·) (ofText_part h).2

theorem parent_child (p : Path) {name : String} (h : isPathPart name = true) :
    (p.child name).parent = p := by
  refine ext (anchor_child p h) ?_
  show (p.child name).parts.dropLast = p.parts
  rw [parts_child p h, List.dropLast_concat]

end Path

end UnusedDeps
