import Mathlib.Data.List.Basic
import UnusedDeps.Invocation.Arguments

/-!
# The parts of an argument list

A scan takes an argument list apart from left to right, into flags with their
values, codegen options that stand in one argument with their flag, and arguments
that say nothing of the unit. A flag at the very end waits for a value in vain.
Every list comes apart in exactly one way, and a scan finds in it what the parts
say, one after another. Main statements: `existsUnique_comesApart` and
`ComesApart.scan_eq`.
-/

namespace UnusedDeps

namespace CompilerFlag

/-- The argument that is the flag. -/
def spelling : CompilerFlag → String
  | .externCrate => "--extern"
  | .crateName => "--crate-name"
  | .crateType => "--crate-type"
  | .capLints => "--cap-lints"
  | .outDir => "--out-dir"
  | .codegen => "-C"

theorem ofArgument?_eq_some_iff {arg : String} {f : CompilerFlag} :
    ofArgument? arg = some f ↔ arg = f.spelling := by
  constructor
  · intro h
    unfold ofArgument? at h
    split_ifs at h <;> cases h <;> assumption
  · rintro rfl
    cases f <;> rfl

theorem ofArgument?_spelling (f : CompilerFlag) : ofArgument? f.spelling = some f :=
  ofArgument?_eq_some_iff.2 rfl

theorem spelling_inj {f g : CompilerFlag} (h : f.spelling = g.spelling) : f = g := by
  have found := ofArgument?_spelling f
  rw [h, ofArgument?_spelling g] at found
  exact (Option.some.inj found).symm

theorem attached_ne_spelling {option : String} (h : option ≠ "") (f : CompilerFlag) :
    "-C" ++ option ≠ f.spelling := by
  intro same
  have chars := congrArg String.toList same
  rw [String.toList_append] at chars
  cases f with
  | codegen => exact h (String.toList_eq_nil_iff.1 (List.append_right_eq_self.1 chars))
  | externCrate | crateName | crateType | capLints | outDir =>
    exact absurd (List.cons.inj (List.cons.inj chars).2).1 (by decide)

theorem attached?_append {option : String} (h : option ≠ "") :
    attached? ("-C" ++ option) = some (.codegen, .text option) := by
  obtain ⟨c, r, hr⟩ := List.exists_cons_of_ne_nil (mt String.toList_eq_nil_iff.1 h)
  have chars : ("-C" ++ option).toList = '-' :: 'C' :: c :: r := by
    rw [String.toList_append, hr]
    rfl
  rw [attached?, chars]
  show some (CompilerFlag.codegen, Value.text (String.ofList (c :: r))) = _
  rw [← hr, String.ofList_toList]

theorem attached?_eq_none {arg : String} (h : ¬"-C".toList <+: arg.toList) :
    attached? arg = none := by
  unfold attached?
  split
  · rename_i c r chars
    exact absurd ⟨c :: r, chars.symm⟩ h
  · rfl

end CompilerFlag

/-! ### Parts -/

/-- What a scan takes from an argument list at once. -/
inductive ArgumentPart where
  /-- A flag with the argument after it, whatever that looks like. -/
  | valued (flag : CompilerFlag) (value : String)
  /-- A codegen option in one argument with its flag. -/
  | attached (option : String)
  /-- An argument that says nothing of the unit. -/
  | plain (arg : String)

namespace ArgumentPart

open CompilerFlag (spelling)

/-- The arguments of a part. -/
def args : ArgumentPart → List String
  | .valued f value => [f.spelling, value]
  | .attached option => ["-C" ++ option]
  | .plain arg => [arg]

/-- Whether a scan takes the arguments of a part for what they are. -/
def IsSound : ArgumentPart → Prop
  | .valued _ _ => True
  | .attached option => option ≠ ""
  | .plain arg => (∀ f : CompilerFlag, arg ≠ f.spelling) ∧ ¬"-C".toList <+: arg.toList

@[simp]
theorem isSound_valued (f : CompilerFlag) (value : String) : (valued f value).IsSound := trivial

theorem isSound_plain_iff {arg : String} :
    (plain arg).IsSound ↔
      CompilerFlag.ofArgument? arg = none ∧ ¬"-C".toList <+: arg.toList := by
  simp only [IsSound, Option.eq_none_iff_forall_ne_some, ne_eq,
    CompilerFlag.ofArgument?_eq_some_iff]

instance (p : ArgumentPart) : Decidable p.IsSound :=
  match p with
  | .valued _ _ => isTrue trivial
  | .attached option => inferInstanceAs (Decidable (option ≠ ""))
  | .plain _ => decidable_of_iff _ isSound_plain_iff.symm

/-- The flag of a part with its value. -/
def pair? : ArgumentPart → Option (CompilerFlag × String)
  | .valued f value => some (f, value)
  | .attached option => some (.codegen, option)
  | .plain _ => none

/-- The flags of parts with their values. -/
def pairs (parts : List ArgumentPart) : List (CompilerFlag × String) := parts.filterMap pair?

theorem pairs_append (parts parts' : List ArgumentPart) :
    pairs (parts ++ parts') = pairs parts ++ pairs parts' :=
  List.filterMap_append

theorem start_attached (option : String) : "-C".toList <+: ("-C" ++ option).toList := by
  rw [String.toList_append]
  exact List.prefix_append _ _

theorem attached_inj {option option' : String} (h : "-C" ++ option = "-C" ++ option') :
    option = option' := by
  have chars := congrArg String.toList h
  rw [String.toList_append, String.toList_append, List.append_right_inj] at chars
  exact String.toList_inj.1 chars

theorem args_append_inj {p q : ArgumentPart} (hp : p.IsSound) (hq : q.IsSound)
    {r s : List String} (h : p.args ++ r = q.args ++ s) : p = q ∧ r = s := by
  cases p with
  | valued f value =>
    cases q with
    | valued g value' =>
      obtain ⟨flag, rest⟩ := List.cons.inj h
      cases CompilerFlag.spelling_inj flag
      cases rest
      exact ⟨rfl, rfl⟩
    | attached option =>
      exact absurd (List.cons.inj h).1.symm (CompilerFlag.attached_ne_spelling hq f)
    | plain arg => exact absurd (List.cons.inj h).1.symm (hq.1 f)
  | attached option =>
    cases q with
    | valued g value => exact absurd (List.cons.inj h).1 (CompilerFlag.attached_ne_spelling hp g)
    | attached option' =>
      obtain ⟨same, rest⟩ := List.cons.inj h
      exact ⟨congrArg _ (attached_inj same), rest⟩
    | plain arg =>
      obtain ⟨rfl, -⟩ := List.cons.inj h
      exact absurd (start_attached option) hq.2
  | plain arg =>
    cases q with
    | valued g value => exact absurd (List.cons.inj h).1 (hp.1 g)
    | attached option =>
      obtain ⟨rfl, -⟩ := List.cons.inj h
      exact absurd (start_attached option) hp.2
    | plain arg' =>
      obtain ⟨rfl, rest⟩ := List.cons.inj h
      exact ⟨rfl, rest⟩

/-- An argument is a flag or a part of its own. -/
theorem exists_of_argument (arg : String) :
    (∃ f : CompilerFlag, arg = f.spelling) ∨ ∃ p : ArgumentPart, p.IsSound ∧ p.args = [arg] := by
  by_cases flag : ∃ f : CompilerFlag, arg = f.spelling
  · exact .inl flag
  · rw [not_exists] at flag
    refine .inr ?_
    by_cases start : "-C".toList <+: arg.toList
    · obtain ⟨r, hr⟩ := start
      have whole : "-C" ++ String.ofList r = arg := by
        rw [← String.toList_inj, String.toList_append]
        exact (congrArg _ String.toList_ofList).trans hr
      refine ⟨.attached (String.ofList r), fun bare => flag .codegen ?_, congrArg List.singleton whole⟩
      rw [← whole, bare]
      rfl
    · exact ⟨.plain arg, ⟨flag, start⟩, rfl⟩

end ArgumentPart

/-- Whether an argument list is made of parts, with a flag at its end that waits for a value. -/
structure ComesApart (args : List String) (parts : List ArgumentPart)
    (waiting : Option CompilerFlag) : Prop where
  sound : ∀ p ∈ parts, p.IsSound
  joined : args = parts.flatMap ArgumentPart.args ++ (waiting.map CompilerFlag.spelling).toList

namespace ComesApart

theorem cons {p : ArgumentPart} (hp : p.IsSound) {args : List String} {parts : List ArgumentPart}
    {waiting : Option CompilerFlag} (h : ComesApart args parts waiting) :
    ComesApart (p.args ++ args) (p :: parts) waiting where
  sound := List.forall_mem_cons.2 ⟨hp, h.sound⟩
  joined := by rw [List.flatMap_cons, List.append_assoc, ← h.joined]

theorem waits (f : CompilerFlag) : ComesApart [f.spelling] [] (some f) :=
  ⟨List.forall_mem_nil _, rfl⟩

theorem nil : ComesApart [] [] none := ⟨List.forall_mem_nil _, rfl⟩

theorem exists_parts : ∀ args : List String, ∃ parts waiting, ComesApart args parts waiting
  | [] => ⟨[], none, nil⟩
  | arg :: rest => by
    rcases ArgumentPart.exists_of_argument arg with ⟨f, rfl⟩ | ⟨p, hp, hargs⟩
    · cases rest with
      | nil => exact ⟨[], some f, waits f⟩
      | cons value rest =>
        obtain ⟨parts, waiting, h⟩ := exists_parts rest
        exact ⟨_, waiting, h.cons (ArgumentPart.isSound_valued f value)⟩
    · obtain ⟨parts, waiting, h⟩ := exists_parts rest
      have whole := h.cons hp
      rw [hargs] at whole
      exact ⟨p :: parts, waiting, whole⟩

/-- A flag that waits at the end is not the start of parts. -/
theorem eq_nil_of_waits {f : CompilerFlag} {parts : List ArgumentPart}
    {waiting : Option CompilerFlag} (h : ComesApart [f.spelling] parts waiting) :
    parts = [] ∧ waiting = some f := by
  obtain ⟨sound, joined⟩ := h
  cases parts with
  | nil =>
    cases waiting with
    | none => cases joined
    | some g =>
      cases CompilerFlag.spelling_inj (List.cons.inj joined).1
      exact ⟨rfl, rfl⟩
  | cons p parts =>
    rw [List.forall_mem_cons] at sound
    cases p with
    | valued g value => cases (List.cons.inj joined).2
    | attached option =>
      exact absurd (List.cons.inj joined).1.symm (CompilerFlag.attached_ne_spelling sound.1 f)
    | plain arg => exact absurd (List.cons.inj joined).1.symm (sound.1.1 f)

theorem eq_nil {parts : List ArgumentPart} {waiting : Option CompilerFlag}
    (h : ComesApart [] parts waiting) : parts = [] ∧ waiting = none := by
  obtain ⟨-, joined⟩ := h
  cases parts with
  | nil =>
    cases waiting with
    | none => exact ⟨rfl, rfl⟩
    | some g => cases joined
  | cons p parts => cases p <;> cases joined

/-- An argument list comes apart in one way only. -/
theorem unique {args : List String} {parts parts' : List ArgumentPart}
    {waiting waiting' : Option CompilerFlag} (h : ComesApart args parts waiting)
    (h' : ComesApart args parts' waiting') : parts' = parts ∧ waiting' = waiting := by
  -- The first parts are the same one, and so is what they leave.
  induction parts generalizing args parts' with
  | nil =>
    cases waiting with
    | none =>
      cases h.joined
      exact h'.eq_nil
    | some f =>
      cases h.joined
      exact h'.eq_nil_of_waits
  | cons p parts ih =>
    obtain ⟨sound, joined⟩ := h
    rw [List.forall_mem_cons] at sound
    rw [List.flatMap_cons, List.append_assoc] at joined
    cases parts' with
    | nil =>
      cases waiting' with
      | none =>
        cases h'.joined
        cases p <;> cases joined
      | some f =>
        cases h'.joined
        have waits : ComesApart [f.spelling] (p :: parts) waiting :=
          ⟨List.forall_mem_cons.2 sound, by rw [List.flatMap_cons, List.append_assoc]; exact joined⟩
        cases waits.eq_nil_of_waits.1
    | cons q parts' =>
      obtain ⟨sound', joined'⟩ := h'
      rw [List.forall_mem_cons] at sound'
      rw [List.flatMap_cons, List.append_assoc] at joined'
      have same := joined.symm.trans joined'
      obtain ⟨rfl, rest⟩ := ArgumentPart.args_append_inj sound.1 sound'.1 same
      obtain ⟨rfl, rfl⟩ := ih ⟨sound.2, rfl⟩ ⟨sound'.2, rest⟩
      exact ⟨rfl, rfl⟩

end ComesApart

theorem existsUnique_comesApart (args : List String) :
    ∃ parts waiting, ∀ parts' waiting',
      ComesApart args parts' waiting' ↔ parts' = parts ∧ waiting' = waiting := by
  obtain ⟨parts, waiting, h⟩ := ComesApart.exists_parts args
  refine ⟨parts, waiting, fun parts' waiting' => ⟨h.unique, ?_⟩⟩
  rintro ⟨rfl, rfl⟩
  exact h

/-! ### What a scan finds -/

namespace CompilerFlag

def finding (p : CompilerFlag × String) : Option (CompilerFlag × Value) := some (p.1, .text p.2)

/-- A scan passes an argument that is no flag, and keeps what stands behind it. -/
theorem scan_cons_of_none {arg : String} (h : ofArgument? arg = none) (vs : List Value) :
    scan (.text arg :: vs) = ((attached? arg).map some).toList ++ scan vs := by
  cases vs with
  | nil => simp [scan, h]
  | cons v vs => rw [scan, h]

theorem scan_part {p : ArgumentPart} (hp : p.IsSound) (vs : List Value) :
    scan (p.args.map .text ++ vs) = (p.pair?.map finding).toList ++ scan vs := by
  cases p with
  | valued f value =>
    show scan (.text f.spelling :: .text value :: vs) = _
    rw [scan, ofArgument?_spelling]
    rfl
  | attached option =>
    have noFlag : ofArgument? ("-C" ++ option) = none :=
      Option.eq_none_iff_forall_ne_some.2 fun f hf =>
        attached_ne_spelling hp f (ofArgument?_eq_some_iff.1 hf)
    show scan (.text ("-C" ++ option) :: vs) = _
    rw [scan_cons_of_none noFlag, attached?_append hp]
    rfl
  | plain arg =>
    rw [ArgumentPart.isSound_plain_iff] at hp
    show scan (.text arg :: vs) = _
    rw [scan_cons_of_none hp.1, attached?_eq_none hp.2]
    rfl

theorem scan_parts {parts : List ArgumentPart} (h : ∀ p ∈ parts, p.IsSound) (vs : List Value) :
    scan ((parts.flatMap ArgumentPart.args).map .text ++ vs) =
      (ArgumentPart.pairs parts).map finding ++ scan vs := by
  induction parts with
  | nil => rfl
  | cons p parts ih =>
    rw [List.forall_mem_cons] at h
    rw [List.flatMap_cons, List.map_append, List.append_assoc, scan_part h.1, ih h.2,
      ← List.append_assoc]
    congr 1
    cases p <;> rfl

end CompilerFlag

/-- A scan finds what the parts say; a flag that waits is not found. -/
theorem ComesApart.scan_eq {args : List String} {parts : List ArgumentPart}
    {waiting : Option CompilerFlag} (h : ComesApart args parts waiting) :
    CompilerFlag.scan (args.map .text) =
      (ArgumentPart.pairs parts).map CompilerFlag.finding := by
  obtain ⟨sound, rfl⟩ := h
  rw [List.map_append, CompilerFlag.scan_parts sound]
  cases waiting with
  | none => exact List.append_nil _
  | some f =>
    show _ ++ CompilerFlag.scan [.text f.spelling] = _
    simp [CompilerFlag.scan, CompilerFlag.ofArgument?_spelling]

end UnusedDeps
