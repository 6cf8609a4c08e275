import UnusedDeps.Proofs.Path
import UnusedDeps.Proofs.Text.Lines

/-!
# Paths that a file can have

A text can be the name of a file when each of its code points has bytes and none
of them is zero. A slash ends whatever stands before it, so the path that a text
denotes can be that of a file when the text can be the name of one, and a path can
exactly when all of its parts can. Other properties that slashes split hold of
paths in the same way. Main statements: `text_iff`, `fault?_eq_none_iff` and
`fault?_ofText`.
-/

namespace UnusedDeps

namespace Text

/-! ### Slashes -/

/-- Whether a property holds of characters exactly when it holds of whatever stands between their
slashes. -/
structure IsSplitAtSlashes (P : List Char → Prop) : Prop where
  nil : P []
  append : ∀ cs ds, P (cs ++ '/' :: ds) ↔ P cs ∧ P ds

namespace IsSplitAtSlashes

variable {P : List Char → Prop} (h : IsSplitAtSlashes P)

include h

theorem cons (cs : List Char) : P ('/' :: cs) ↔ P cs := by
  have split := h.append [] cs
  rwa [List.nil_append, and_iff_right h.nil] at split

theorem intercalate (parts : List (List Char)) :
    P (List.intercalate ['/'] parts) ↔ ∀ cs ∈ parts, P cs := by
  induction parts with
  | nil => exact ⟨fun _ => List.forall_mem_nil _, fun _ => h.nil⟩
  | cons cs parts ih =>
    cases parts with
    | nil => rw [List.intercalate_singleton, List.forall_mem_singleton]
    | cons ds parts =>
      rw [List.intercalate_cons_cons, List.append_assoc, List.singleton_append, h.append, ih,
        ← List.forall_mem_cons]

end IsSplitAtSlashes

/-- The pieces of characters, put together again. -/
theorem intercalate_pieces (sep : Char) (cs : List Char) :
    List.intercalate [sep] (pieces (· == sep) cs) = cs := by
  induction cs with
  | nil => rfl
  | cons c cs ih =>
    obtain ⟨p, ps, hp⟩ := List.exists_cons_of_ne_nil (pieces_ne_nil (· == sep) cs)
    rw [hp] at ih
    unfold pieces
    rw [hp]
    by_cases hc : c = sep
    · subst hc
      rw [if_pos (beq_self_eq_true c), List.intercalate_cons_cons, ih]
      rfl
    · rw [if_neg (by simpa using hc)]
      dsimp only
      cases ps with
      | nil =>
        rw [List.intercalate_singleton] at ih ⊢
        rw [ih]
      | cons q ps =>
        rw [List.intercalate_cons_cons, List.append_assoc] at ih ⊢
        rw [List.cons_append, ih]

/-! ### Names -/

/-- Whether the code points that characters keep have bytes in the name of a file. -/
def HasBytes (cs : List Char) : Prop := ∀ n ∈ codesOf cs, (nameBytes? n).isSome = true

/-- A slash is kept by itself behind any character but the mark, which it may stand for. -/
theorem hasBytes_append_slash (cs ds : List Char) :
    HasBytes (cs ++ '/' :: ds) ↔ HasBytes cs ∧ HasBytes ds := by
  have slash : (nameBytes? ('/' : Char).toNat).isSome = true := by decide
  have last : (nameBytes? (keptCode mark)).isSome = true := by decide
  have bare : HasBytes ('/' :: ds) ↔ HasBytes ds := by
    unfold HasBytes
    rw [codesOf_cons (by decide), List.forall_mem_cons]
    exact and_iff_right slash
  fun_induction codesOf cs with
  | case1 =>
    rw [List.nil_append, bare]
    exact (and_iff_right (List.forall_mem_nil _)).symm
  | case2 c =>
    rw [List.singleton_append]
    by_cases hc : c = mark
    · subst hc
      have single : HasBytes [mark] := List.forall_mem_singleton.2 last
      rw [and_iff_right single]
      unfold HasBytes
      rw [codesOf, if_pos rfl, List.forall_mem_cons]
      exact and_iff_right slash
    · rw [← bare]
      unfold HasBytes
      rw [codesOf_cons hc, List.forall_mem_cons]
      exact and_congr_left'
        (List.forall_mem_singleton (p := fun n => (nameBytes? n).isSome = true)).symm
  | case3 d r ih =>
    unfold HasBytes at ih ⊢
    rw [List.cons_append, List.cons_append, codesOf, codesOf, if_pos rfl, if_pos rfl,
      List.forall_mem_cons, List.forall_mem_cons, and_assoc]
    exact and_congr_right fun _ => ih
  | case4 c d r hc ih =>
    unfold HasBytes at ih ⊢
    rw [List.cons_append, codesOf_cons hc, codesOf_cons hc, List.forall_mem_cons,
      List.forall_mem_cons, and_assoc]
    exact and_congr_right fun _ => ih

/-- Whether characters are those of a text that can be the name of a file. -/
def IsName (cs : List Char) : Prop := HasBytes cs ∧ '\x00' ∉ cs

theorem isSplitAtSlashes_isName : IsSplitAtSlashes IsName where
  nil := ⟨List.forall_mem_nil _, List.not_mem_nil⟩
  append := by
    intro cs ds
    have zero : '\x00' ∉ cs ++ '/' :: ds ↔ '\x00' ∉ cs ∧ '\x00' ∉ ds := by
      simp [List.mem_append, List.mem_cons]
    unfold IsName
    rw [hasBytes_append_slash, zero, and_and_and_comm]

theorem hostBytes?_isSome_iff {s : String} :
    (hostBytes? s).isSome = true ↔ HasBytes s.toList := by
  rw [hostBytes?, Option.isSome_map, codes]
  unfold HasBytes
  induction codesOf s.toList with
  | nil => simp
  | cons n ns ih =>
    rw [List.mapM_cons, List.forall_mem_cons, ← ih]
    cases nameBytes? n with
    | none => simp
    | some b => cases ns.mapM nameBytes? <;> simp

end Text

namespace Path

theorem nameFault?_eq_none_iff {s : String} : nameFault? s = none ↔ Text.IsName s.toList := by
  rw [Text.IsName, ← Text.hostBytes?_isSome_iff, nameFault?]
  cases Text.hostBytes? s with
  | none => simp
  | some bytes =>
    by_cases zero : '\x00' ∈ s.toList <;> simp [zero]

section

variable {P : List Char → Prop} (h : Text.IsSplitAtSlashes P)

include h

/-- A path has a property when each of its parts does. -/
theorem text_iff (dot : P ".".toList) {p : Path} :
    P p.text.toList ↔ ∀ part ∈ p.parts, P part.toList := by
  have parts : P (joinedParts p.parts) ↔ ∀ part ∈ p.parts, P part.toList := by
    rw [joinedParts, h.intercalate, List.forall_mem_map]
  rw [← parts]
  by_cases some : p.anchor ≠ .relative ∨ p.parts ≠ []
  · rw [toList_text p some]
    cases p.anchor with
    | relative => exact Iff.rfl
    | root => exact h.cons _
    | doubleRoot => exact (h.cons _).trans (h.cons _)
  · simp only [ne_eq, not_or, not_not] at some
    have same : p.text = "." := by simp [text, some.1, some.2]
    have empty : joinedParts [] = [] := rfl
    rw [same, some.2, empty]
    exact iff_of_true dot h.nil

theorem forall_parts_ofText {s : String} (hs : P s.toList) :
    ∀ part ∈ (ofText s).parts, P part.toList := by
  rw [← Text.intercalate_pieces '/' s.toList, h.intercalate] at hs
  intro part hpart
  have piece := (List.mem_filter.1 hpart).1
  rw [Text.splitOnChar, List.mem_map] at piece
  obtain ⟨cs, hcs, rfl⟩ := piece
  rw [String.toList_ofList]
  exact hs cs hcs

end

/-- A path can be that of a file when each of its parts can be the name of one. -/
theorem fault?_eq_none_iff {p : Path} :
    p.fault? = none ↔ ∀ part ∈ p.parts, nameFault? part = none := by
  have dot : Text.IsName ".".toList := nameFault?_eq_none_iff.1 (by decide)
  rw [fault?, nameFault?_eq_none_iff, text_iff Text.isSplitAtSlashes_isName dot]
  exact forall₂_congr fun part _ => nameFault?_eq_none_iff.symm

/-- The path that a text denotes can be that of a file when the text can be the name of one. -/
theorem fault?_ofText {s : String} (h : nameFault? s = none) : (ofText s).fault? = none := by
  rw [nameFault?_eq_none_iff] at h
  exact fault?_eq_none_iff.2 fun part hpart =>
    nameFault?_eq_none_iff.2 (forall_parts_ofText Text.isSplitAtSlashes_isName h part hpart)

end Path

end UnusedDeps
