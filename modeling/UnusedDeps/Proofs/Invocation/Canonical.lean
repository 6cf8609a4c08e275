import UnusedDeps.Proofs.Invocation.Parsed
import UnusedDeps.Proofs.Path

/-!
# Arguments that spell a record

A record can be spelled as an argument list in many ways: its groups stand in any
order and codegen options in either spelling, among further options and arguments
that say nothing of the unit. Names, paths and values may look like flags.
However a record is spelled, it is read back, and every record that a unit can have
is spelled by some list. Main statements: `ofArguments_of_spells` and
`spells_writtenParts`.
-/

namespace UnusedDeps

namespace InvocationRecord

/-- Whether parts spell a record, in any order and with anything else among them that says nothing
of it. -/
structure Spells (r : InvocationRecord) (parts : List ArgumentPart) : Prop where
  sound : ∀ p ∈ parts, p.IsSound
  crateName : ∃ name, r.crateName = .text name ∧
    valuesOf .crateName (ArgumentPart.pairs parts) = [name]
  /-- Only the crate type `bin` may be left out. -/
  crateType : ∃ type, r.crateType = .text type ∧ type ≠ "" ∧
    (valuesOf .crateType (ArgumentPart.pairs parts) = [type] ∨
      valuesOf .crateType (ArgumentPart.pairs parts) = [] ∧ type = "bin")
  /-- One codegen option sets the extra filename; any others do not. -/
  extraFilename : ∃ before option after,
    valuesOf .codegen (ArgumentPart.pairs parts) = before ++ option :: after ∧
    Assigns option "extra-filename" r.extraFilename ∧
    ∀ other ∈ before ++ after, ∀ value, ¬Assigns other "extra-filename" value
  outDir : valuesOf .outDir (ArgumentPart.pairs parts) = [r.outDir.text]
  capLintsAllow : "allow" ∈ valuesOf .capLints (ArgumentPart.pairs parts) ↔ r.capLintsAllow = true
  /-- The aliases stand in their order, each with its file or alone when that is empty. -/
  externs : List.Forall₂ (fun value e => Assigns value e.1 e.2 ∧ e.1 ≠ "")
    (valuesOf .externCrate (ArgumentPart.pairs parts)) r.externs

/-! ### Reading a spelled record -/

theorem filterMap_extraFilename (pairs : List (CompilerFlag × String)) :
    pairs.filterMap (supplied? .extraFilename) =
      (valuesOf .codegen pairs).filterMap extraFilenameOf? := by
  rw [valuesOf, List.filterMap_filterMap]
  refine List.filterMap_congr fun p _ => ?_
  rw [supplied?]
  split <;> rfl

namespace Spells

variable {r : InvocationRecord} {parts : List ArgumentPart} (h : r.Spells parts)
include h

theorem comesApart : ComesApart (parts.flatMap ArgumentPart.args) parts none :=
  ⟨h.sound, (List.append_nil _).symm⟩

theorem named : ∀ value ∈ valuesOf .externCrate (ArgumentPart.pairs parts), ¬IsNameless value := by
  intro value hvalue nameless
  obtain ⟨e, -, assigns, filled⟩ := exists_right_of_forall₂ h.externs hvalue
  rw [isNameless_iff, cutAtEquals_of_assigns assigns] at nameless
  exact filled nameless

theorem lastExtraFilename :
    LastGives (Supplies .extraFilename) (ArgumentPart.pairs parts) r.extraFilename := by
  obtain ⟨before, option, after, values, assigns, others⟩ := h.extraFilename
  simp only [← extraFilenameOf?_eq_none_iff, List.forall_mem_append] at others
  rw [lastGives_iff supplied?_eq_some_iff, filterMap_extraFilename, values, List.filterMap_append,
    List.filterMap_cons, extraFilenameOf?_eq_some_iff.2 assigns,
    List.filterMap_eq_nil_iff.2 others.1, List.filterMap_eq_nil_iff.2 others.2]
  rfl

theorem recordOf : RecordOf r.package r.customBuild (ArgumentPart.pairs parts) r where
  package := rfl
  customBuild := rfl
  crateName := by
    obtain ⟨name, hname, values⟩ := h.crateName
    refine ⟨name, (lastGives_iff supplied?_eq_some_iff).2 ?_, hname⟩
    exact congrArg List.getLast? values
  crateType := by
    obtain ⟨type, htype, filled, values⟩ := h.crateType
    refine ⟨type, htype, ?_⟩
    simp only [lastGives_iff pair_eq_iff]
    rcases values with values | ⟨values, bin⟩
    · exact .inl ⟨congrArg List.getLast? values, filled⟩
    · refine .inr ⟨fun t ht => ?_, bin⟩
      cases (congrArg List.getLast? values).symm.trans ht
  extraFilename := h.lastExtraFilename
  capLintsAllow := by rw [← h.capLintsAllow, mem_valuesOf]
  outDir := by
    refine ⟨r.outDir.text, (lastGives_iff supplied?_eq_some_iff).2 ?_, (Path.ofText_text _).symm⟩
    exact congrArg List.getLast? h.outDir
  externs := h.externs.imp fun _ _ assigns => assigns.1

end Spells

/-- However a record is spelled, it is read back. -/
theorem ofArguments_of_spells {r : InvocationRecord} {parts : List ArgumentPart}
    (h : r.Spells parts) :
    ofArguments r.package ((parts.flatMap ArgumentPart.args).map .text) r.customBuild = .ok r :=
  (ofArguments_eq_ok_iff h.comesApart h.named).2 h.recordOf

/-- A record whose name, output directory, extra filename and first alias look like flags. -/
def lookalike : InvocationRecord where
  package := ⟨.text "app", .text "1.0.0", .text "path+file:///ws/app"⟩
  customBuild := .bool false
  crateName := .text "--extern"
  crateType := .text "bin"
  extraFilename := "-C"
  capLintsAllow := true
  outDir := Path.ofText "--crate-name"
  externs := [("--out-dir", "/t=1/-C"), ("proc_macro", "")]

/-- Parts that spell it, in no certain order. -/
def lookalikeParts : List ArgumentPart :=
  [.plain "src/main.rs", .valued .capLints "--crate-type", .valued .externCrate "--out-dir=/t=1/-C",
    .attached "opt-level=3", .valued .outDir "--crate-name", .valued .codegen "--out-dir",
    .attached "extra-filename=-C", .plain "--cfg", .valued .crateName "--extern",
    .valued .externCrate "proc_macro", .valued .capLints "allow"]

theorem ofArguments_of_spells_lookalike :
    lookalike.Spells lookalikeParts ∧
      lookalikeParts.flatMap ArgumentPart.args = ["src/main.rs", "--cap-lints", "--crate-type",
        "--extern", "--out-dir=/t=1/-C", "-Copt-level=3", "--out-dir", "--crate-name", "-C",
        "--out-dir", "-Cextra-filename=-C", "--cfg", "--crate-name", "--extern", "--extern",
        "proc_macro", "--cap-lints", "allow"] ∧
      ofArguments lookalike.package ((lookalikeParts.flatMap ArgumentPart.args).map .text)
        lookalike.customBuild = .ok lookalike := by
  have spells : lookalike.Spells lookalikeParts := {
    sound := by decide
    crateName := ⟨"--extern", rfl, by decide⟩
    crateType := ⟨"bin", rfl, by decide, .inr ⟨by decide, rfl⟩⟩
    extraFilename := by
      refine ⟨["opt-level=3", "--out-dir"], "extra-filename=-C", [], by decide, by decide, ?_⟩
      simp only [← extraFilenameOf?_eq_none_iff]
      decide
    outDir := by decide
    capLintsAllow := by decide
    externs := by decide }
  exact ⟨spells, by decide, ofArguments_of_spells spells⟩

/-! ### One spelling -/

/-- One spelling of a record: each flag in an argument of its own, every alias with its file. -/
def writtenParts (r : InvocationRecord) : List ArgumentPart :=
  .valued .crateName r.crateName.plainText :: .valued .crateType r.crateType.plainText ::
    .valued .codegen ("extra-filename=" ++ r.extraFilename) :: .valued .outDir r.outDir.text ::
    ((if r.capLintsAllow then [.valued .capLints "allow"] else []) ++
      r.externs.map fun e => .valued .externCrate (e.1 ++ "=" ++ e.2))

theorem valuesOf_valued_cons (f g : CompilerFlag) (value : String) (parts : List ArgumentPart) :
    valuesOf f (ArgumentPart.pairs (.valued g value :: parts)) =
      (if g = f then [value] else []) ++ valuesOf f (ArgumentPart.pairs parts) := by
  simp only [valuesOf, ArgumentPart.pairs, List.filterMap_cons, ArgumentPart.pair?]
  by_cases same : g = f <;> simp [same]

theorem valuesOf_externs (f : CompilerFlag) (externs : List (String × String)) :
    valuesOf f (ArgumentPart.pairs
      (externs.map fun e => .valued .externCrate (e.1 ++ "=" ++ e.2))) =
        if .externCrate = f then externs.map fun e => e.1 ++ "=" ++ e.2 else [] := by
  induction externs with
  | nil => simp [valuesOf, ArgumentPart.pairs]
  | cons e externs ih =>
    rw [List.map_cons, valuesOf_valued_cons, ih]
    split <;> rfl

theorem valuesOf_writtenParts (r : InvocationRecord) (f : CompilerFlag) :
    valuesOf f (ArgumentPart.pairs r.writtenParts) =
      match f with
      | .crateName => [r.crateName.plainText]
      | .crateType => [r.crateType.plainText]
      | .codegen => ["extra-filename=" ++ r.extraFilename]
      | .outDir => [r.outDir.text]
      | .capLints => if r.capLintsAllow then ["allow"] else []
      | .externCrate => r.externs.map fun e => e.1 ++ "=" ++ e.2 := by
  have silent : valuesOf f (ArgumentPart.pairs
      (if r.capLintsAllow then [.valued .capLints "allow"] else [])) =
        if .capLints = f ∧ r.capLintsAllow then ["allow"] else [] := by
    cases r.capLintsAllow
    · simp [valuesOf, ArgumentPart.pairs]
    · simpa [valuesOf, ArgumentPart.pairs] using valuesOf_valued_cons f .capLints "allow" []
  rw [writtenParts]
  simp only [valuesOf_valued_cons, ArgumentPart.pairs_append, valuesOf_append, silent,
    valuesOf_externs]
  cases f <;> simp

/-- A record with a crate type whose aliases are names is spelled by some parts. -/
theorem spells_writtenParts {r : InvocationRecord} {name type : String}
    (crateName : r.crateName = .text name) (crateType : r.crateType = .text type)
    (filled : type ≠ "") (named : ∀ e ∈ r.externs, e.1 ≠ "" ∧ '=' ∉ e.1.toList) :
    r.Spells r.writtenParts where
  sound := by
    simp only [writtenParts, List.forall_mem_cons, List.forall_mem_append, List.forall_mem_map,
      ArgumentPart.isSound_valued, true_and, implies_true, and_true]
    cases r.capLintsAllow <;> simp
  crateName := ⟨name, crateName, by rw [valuesOf_writtenParts, crateName]; rfl⟩
  crateType := ⟨type, crateType, filled, .inl (by rw [valuesOf_writtenParts, crateType]; rfl)⟩
  extraFilename := by
    refine ⟨[], _, [], valuesOf_writtenParts r .codegen, ⟨by decide, .inl rfl⟩, ?_⟩
    exact List.forall_mem_nil _
  outDir := valuesOf_writtenParts r .outDir
  capLintsAllow := by
    rw [valuesOf_writtenParts]
    cases r.capLintsAllow <;> simp
  externs := by
    rw [valuesOf_writtenParts, List.forall₂_map_left_iff, List.forall₂_same]
    exact fun e he => ⟨⟨(named e he).2, .inl rfl⟩, (named e he).1⟩

end InvocationRecord

end UnusedDeps
