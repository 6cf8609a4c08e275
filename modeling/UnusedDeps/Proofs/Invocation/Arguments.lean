import UnusedDeps.Invocation.Arguments
import UnusedDeps.Proofs.Keys
import UnusedDeps.Proofs.Steps

/-!
# Records of arguments that are texts

When every argument of a unit is a text, so are the crate name and the crate type
of its record. Main statement: `InvocationRecord.isText_of_ofArguments`.
-/

namespace UnusedDeps

namespace CompilerFlag

theorem isText_of_mem_attached? {arg : String} {found : CompilerFlag × Value}
    (h : some found ∈ ((attached? arg).map some).toList) : found.2.IsText := by
  obtain ⟨f, hf, heq⟩ := Option.map_eq_some_iff.1 (Option.mem_toList.1 h)
  cases heq
  unfold attached? at hf
  split at hf
  · cases hf
    exact ⟨_, rfl⟩
  · cases hf

/-- The values that a scan of texts finds are texts. -/
theorem isText_of_mem_scan {vs : List Value} (h : ∀ v ∈ vs, v.IsText)
    {found : CompilerFlag × Value} (hf : some found ∈ scan vs) : found.2.IsText := by
  fun_induction scan vs with
  | case1 => cases hf
  | case2 => cases hf
  | case3 => exact isText_of_mem_attached? hf
  | case4 arg rest f flag ih =>
    exact ih (fun v hv => h v (List.mem_cons_of_mem _ (List.mem_cons_of_mem _ hv))) hf
  | case5 arg value rest f flag given ih =>
    rw [List.forall_mem_cons, List.forall_mem_cons] at h
    rcases List.mem_cons.1 hf with heq | hf
    · cases heq
      exact h.2.1
    · exact ih h.2.2 hf
  | case6 arg value rest plain ih =>
    rcases List.mem_append.1 hf with hf | hf
    · exact isText_of_mem_attached? hf
    · exact ih (fun v hv => h v (List.mem_cons_of_mem _ hv)) hf
  | case7 head rest _ _ ih =>
    rcases List.mem_cons.1 hf with heq | hf
    · cases heq
    · exact ih (fun v hv => h v (List.mem_cons_of_mem _ hv)) hf

end CompilerFlag

namespace CompilerArguments

/-- Whether the crate name and the crate type are texts where they are given. -/
structure IsTextual (a : CompilerArguments) : Prop where
  crateName : ∀ v, a.crateName = some v → v.IsText
  crateType : ∀ v, a.crateType = some v → v.IsText

/-- One more flag with a text keeps the crate name and the crate type texts. -/
theorem isTextual_add {a b : CompilerArguments} (ha : a.IsTextual) {f : CompilerFlag} {v : Value}
    (hv : v.IsText) (h : a.add f v = .ok b) : b.IsTextual := by
  cases f with
  | externCrate =>
    obtain ⟨s, -, h⟩ := bind_eq_ok.1 h
    obtain ⟨e, -, h⟩ := bind_eq_ok.1 h
    cases h
    exact ⟨ha.crateName, ha.crateType⟩
  | crateName =>
    cases h
    exact ⟨fun w hw => Option.some.inj hw ▸ hv, ha.crateType⟩
  | crateType =>
    cases h
    exact ⟨ha.crateName, fun w hw => Option.some.inj hw ▸ hv⟩
  | capLints =>
    cases h
    exact ⟨ha.crateName, ha.crateType⟩
  | outDir =>
    cases h
    exact ⟨ha.crateName, ha.crateType⟩
  | codegen =>
    obtain ⟨s, -, h⟩ := bind_eq_ok.1 h
    cases h
    exact ⟨ha.crateName, ha.crateType⟩

section

variable {P : CompilerArguments → Prop}
  (step : ∀ {a b : CompilerArguments}, P a → ∀ {f : CompilerFlag} {v : Value}, v.IsText →
    a.add f v = .ok b → P b)
include step

theorem foldlM_induction {found : List (Option (CompilerFlag × Value))}
    (h : ∀ x, some x ∈ found → x.2.IsText) {a b : CompilerArguments} (ha : P a)
    (hb : found.foldlM addFound a = .ok b) : P b := by
  induction found generalizing a with
  | nil =>
    cases hb
    exact ha
  | cons x found ih =>
    rw [List.foldlM_cons] at hb
    obtain ⟨c, hc, hb⟩ := bind_eq_ok.1 hb
    refine ih (fun y hy => h y (List.mem_cons_of_mem x hy)) ?_ hb
    cases x with
    | none => cases hc
    | some x => exact step ha (h x List.mem_cons_self) hc

/-- What holds at first and is kept by every flag with a text holds of all that texts say. -/
theorem ofList_induction (start : P {}) {args : List Value} (h : ∀ v ∈ args, v.IsText)
    {a : CompilerArguments} (ha : ofList args = .ok a) : P a :=
  foldlM_induction step (fun _ hx => CompilerFlag.isText_of_mem_scan h hx) start ha

end

theorem isTextual_ofList {args : List Value} (h : ∀ v ∈ args, v.IsText) {a : CompilerArguments}
    (ha : ofList args = .ok a) : a.IsTextual :=
  ofList_induction isTextual_add ⟨by simp, by simp⟩ h ha

end CompilerArguments

namespace InvocationRecord

theorem requireArgument_eq_ok {α : Type} {package : PackageId} {argument : RequiredArgument}
    {x : Option α} {a : α} : requireArgument package argument x = .ok a ↔ x = some a := by
  cases x <;> simp [requireArgument]

/-- What a record has from its unit, and what is a text in it when the arguments are. -/
theorem isText_of_ofArguments {package : PackageId} {args : List Value} {customBuild : Value}
    (h : ∀ v ∈ args, v.IsText) {r : InvocationRecord}
    (hr : ofArguments package args customBuild = .ok r) :
    r.package = package ∧ r.customBuild = customBuild ∧ r.crateName.IsText ∧ r.crateType.IsText := by
  obtain ⟨a, ha, hr⟩ := bind_eq_ok.1 hr
  obtain ⟨name, hname, hr⟩ := bind_eq_ok.1 hr
  obtain ⟨extra, -, hr⟩ := bind_eq_ok.1 hr
  obtain ⟨outDir, -, hr⟩ := bind_eq_ok.1 hr
  obtain ⟨directory, -, hr⟩ := bind_eq_ok.1 hr
  cases hr
  have textual := CompilerArguments.isTextual_ofList h ha
  refine ⟨rfl, rfl, textual.crateName name (requireArgument_eq_ok.1 hname), ?_⟩
  cases htype : a.crateType.filter (·.isTruthy) with
  | none => exact ⟨"bin", rfl⟩
  | some v =>
    have given := (Option.filter_eq_some_iff.1 htype).1
    simpa [htype] using textual.crateType v given

end InvocationRecord

end UnusedDeps
