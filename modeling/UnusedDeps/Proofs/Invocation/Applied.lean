import UnusedDeps.Proofs.Invocation.Parsed
import UnusedDeps.Proofs.Recorder

/-!
# The arguments that a unit is compiled with

A local unit is compiled with artifact arguments behind its own. They say nothing
of the unit, unless the arguments end with a flag that waits for a value: that flag
takes the first artifact argument for it, and the second one stands alone. What is
compiled is then another unit than the one recorded, but for the flags that say
nothing new. Main statement: `ofArguments_apply`.
-/

namespace UnusedDeps

/-! ### Lists one after another -/

namespace ComesApart

variable {args args' : List String} {parts parts' : List ArgumentPart}
  {waiting : Option CompilerFlag}

theorem append (h : ComesApart args parts none) (h' : ComesApart args' parts' waiting) :
    ComesApart (args ++ args') (parts ++ parts') waiting where
  sound := List.forall_mem_append.2 ⟨h.sound, h'.sound⟩
  joined := by
    rw [h.joined, h'.joined, List.flatMap_append]
    simp

/-- A flag that waits takes the argument that follows. -/
theorem concat {f : CompilerFlag} (h : ComesApart args parts (some f)) (value : String) :
    ComesApart (args ++ [value]) (parts ++ [.valued f value]) none where
  sound := by
    rw [List.forall_mem_append, List.forall_mem_singleton]
    exact ⟨h.sound, ArgumentPart.isSound_valued f value⟩
  joined := by
    rw [h.joined, List.flatMap_append]
    simp [ArgumentPart.args]

end ComesApart

namespace InvocationRecord

/-! ### One more flag -/

/-- The record with one more flag and its value. -/
def given (r : InvocationRecord) (f : CompilerFlag) (value : String) : InvocationRecord :=
  match f with
  | .externCrate => { r with externs := r.externs ++ [cutAtEquals value] }
  | .crateName => { r with crateName := .text value }
  | .crateType => { r with crateType := .text (if value = "" then "bin" else value) }
  | .capLints => { r with capLintsAllow := r.capLintsAllow || value = "allow" }
  | .outDir => { r with outDir := Path.ofText value }
  | .codegen => { r with extraFilename := (extraFilenameOf? value).getD r.extraFilename }

/-- Whether a record says already what one more flag says with its value. -/
def Tells (r : InvocationRecord) (f : CompilerFlag) (value : String) : Prop :=
  match f with
  | .externCrate => False
  | .crateName => r.crateName = .text value
  | .crateType => r.crateType = .text (if value = "" then "bin" else value)
  | .capLints => value = "allow" → r.capLintsAllow = true
  | .outDir => r.outDir = Path.ofText value
  | .codegen => ∀ extra, Assigns value "extra-filename" extra → r.extraFilename = extra

theorem given_eq_iff {r : InvocationRecord} {f : CompilerFlag} {value : String} :
    r.given f value = r ↔ r.Tells f value := by
  cases r
  cases f with
  | externCrate => simp [given, Tells]
  | crateName => simp [given, Tells, eq_comm]
  | crateType => simp [given, Tells, eq_comm]
  | capLints => simp [given, Tells]
  | outDir => simp [given, Tells, eq_comm]
  | codegen =>
    simp only [given, Tells, ← extraFilenameOf?_eq_some_iff]
    cases extraFilenameOf? value <;> simp [eq_comm]

end InvocationRecord

theorem getLast?_filterMap_concat {α β : Type} {g : α → Option β} {xs : List α} {b : β}
    (h : (xs.filterMap g).getLast? = some b) (x : α) :
    ((xs ++ [x]).filterMap g).getLast? = some ((g x).getD b) := by
  cases hx : g x with
  | none => simp [hx, h]
  | some c => simp [hx]

instance (r : InvocationRecord) (f : CompilerFlag) (value : String) :
    Decidable (r.Tells f value) :=
  decidable_of_iff _ InvocationRecord.given_eq_iff

theorem RecordOf.given {package : PackageId} {customBuild : Value}
    {pairs : List (CompilerFlag × String)} {r : InvocationRecord}
    (h : RecordOf package customBuild pairs r) (f : CompilerFlag) (value : String) :
    RecordOf package customBuild (pairs ++ [(f, value)]) (r.given f value) := by
  rw [recordOf_iff] at h ⊢
  obtain ⟨name, extra, dir, hname, hextra, hdir, rfl⟩ := h
  refine ⟨_, _, _, getLast?_filterMap_concat hname _, getLast?_filterMap_concat hextra _,
    getLast?_filterMap_concat hdir _, ?_⟩
  cases f with
  | crateType =>
    simpa [InvocationRecord.given, supplied?, CompilerArguments.ofPairs, valuesOf]
      using (getD_crateType_text value).symm
  | capLints =>
    simp [InvocationRecord.given, supplied?, CompilerArguments.ofPairs, valuesOf, Bool.decide_or,
      @eq_comm _ value]
  | externCrate | crateName | outDir | codegen =>
    simp [InvocationRecord.given, supplied?, CompilerArguments.ofPairs, valuesOf]

/-! ### Artifact arguments -/

namespace InvocationRecord

variable {args : List String} {parts : List ArgumentPart} {waiting : Option CompilerFlag}
  {package : PackageId} {customBuild : Value} {r : InvocationRecord}

/-- Behind arguments that are complete, artifact arguments say nothing. -/
theorem ofArguments_append_of_complete (apart : ComesApart args parts none)
    (h : ofArguments package (args.map .text) customBuild = .ok r) :
    ofArguments package ((args ++ Recorder.artifactArgs).map .text) customBuild = .ok r := by
  have plain : ComesApart Recorder.artifactArgs
      (Recorder.artifactArgs.map .plain) none := ⟨by decide, rfl⟩
  have named := named_of_ofArguments apart h
  have same : ArgumentPart.pairs (parts ++ Recorder.artifactArgs.map .plain) =
      ArgumentPart.pairs parts := by
    rw [ArgumentPart.pairs_append]
    exact List.append_nil _
  rw [ofArguments_eq_ok_iff apart named] at h
  rw [ofArguments_eq_ok_iff (apart.append plain) (by rwa [same]), same]
  exact h

/-- A flag that waits takes the first artifact argument for its value. -/
theorem ofArguments_append_of_waits {f : CompilerFlag} (apart : ComesApart args parts (some f))
    (h : ofArguments package (args.map .text) customBuild = .ok r) :
    ofArguments package ((args ++ Recorder.artifactArgs).map .text) customBuild =
      .ok (r.given f "-Z") := by
  have plain : ComesApart ["save-analysis"] [.plain "save-analysis"] none := ⟨by decide, rfl⟩
  have whole := (apart.concat "-Z").append plain
  rw [List.append_assoc] at whole
  have named := named_of_ofArguments apart h
  have pairs : ArgumentPart.pairs (parts ++ [.valued f "-Z"] ++ [.plain "save-analysis"]) =
      ArgumentPart.pairs parts ++ [(f, "-Z")] := by
    rw [ArgumentPart.pairs_append, ArgumentPart.pairs_append]
    exact List.append_nil _
  have named' : ∀ value ∈ valuesOf .externCrate (ArgumentPart.pairs parts ++ [(f, "-Z")]),
      ¬IsNameless value := by
    rw [valuesOf_append, List.forall_mem_append]
    refine ⟨named, fun value hvalue => ?_⟩
    rw [mem_valuesOf, List.mem_singleton] at hvalue
    cases hvalue
    rw [isNameless_iff]
    decide
  rw [ofArguments_eq_ok_iff apart named] at h
  rw [← pairs] at named'
  refine (ofArguments_eq_ok_iff whole named').2 ?_
  rw [pairs]
  exact h.given f "-Z"

end InvocationRecord

namespace CompileUnit

/-- The flag at the end of a unit's arguments that takes the first artifact argument. -/
def misled (u : CompileUnit) (waiting : Option CompilerFlag) : Option CompilerFlag :=
  if u.isLocal.isTruthy then waiting else none

/-- The arguments that a unit is compiled with give a record whenever its own do. It is the same
one, unless the unit is local and its arguments end with a flag that waits for a value: the record
is then given that flag with the first artifact argument. -/
theorem ofArguments_apply {recorder recorder' : Recorder} {u : CompileUnit} {d : Decision}
    {args : List String} {parts : List ArgumentPart} {waiting : Option CompilerFlag}
    (texts : u.args = args.map .text) (apart : ComesApart args parts waiting)
    (accepted : (recorder.observe u).result = .ok (d, recorder')) :
    ∃ r, InvocationRecord.ofArguments u.package u.args u.customBuild = .ok r ∧
      ∃ r', InvocationRecord.ofArguments u.package (d.apply u.args) u.customBuild = .ok r' ∧
        r' = (u.misled waiting).elim r (r.given · "-Z") ∧
        (r' = r ↔ ∀ f, u.misled waiting = some f → r.Tells f "-Z") := by
  obtain ⟨r, hr⟩ := isParsed_of_observe accepted
  cases accepted.symm.trans (recorder.result_observe ⟨r, hr⟩)
  refine ⟨r, hr, ?_⟩
  rw [texts] at hr ⊢
  rw [misled]
  cases u.isLocal.isTruthy with
  | false =>
    refine ⟨r, ?_, rfl, iff_of_true rfl fun _ => nofun⟩
    rw [Decision.apply, Recorder.decision]
    simpa using hr
  | true =>
    have applied : (recorder.decision true).apply (args.map .text) =
        (args ++ Recorder.artifactArgs).map .text := (List.map_append ..).symm
    rw [applied]
    cases waiting with
    | none =>
      exact ⟨r, InvocationRecord.ofArguments_append_of_complete apart hr, rfl,
        iff_of_true rfl fun _ => nofun⟩
    | some f =>
      refine ⟨_, InvocationRecord.ofArguments_append_of_waits apart hr, rfl, ?_⟩
      rw [InvocationRecord.given_eq_iff]
      simp

/-- A local unit whose arguments end with a flag that waits for a value. -/
def unfinished : CompileUnit where
  package := ⟨.text "app", .text "1.0.0", .text "path+file:///ws/app"⟩
  args := ["--crate-name", "app", "-C", "extra-filename=-x", "--out-dir", "out",
    "--crate-type"].map .text
  customBuild := .bool false
  isLocal := .bool true

/-- The record that its own arguments give. -/
def unfinishedRecord : InvocationRecord where
  package := unfinished.package
  customBuild := .bool false
  crateName := .text "app"
  crateType := .text "bin"
  extraFilename := "-x"
  capLintsAllow := false
  outDir := Path.ofText "out"
  externs := []

theorem ofArguments_unfinished :
    InvocationRecord.ofArguments unfinished.package unfinished.args unfinished.customBuild =
      .ok unfinishedRecord :=
  rfl

theorem ofArguments_apply_unfinished :
    ∃ r, InvocationRecord.ofArguments unfinished.package unfinished.args unfinished.customBuild =
        .ok r ∧
      ∃ r', InvocationRecord.ofArguments unfinished.package
          (((Recorder.fresh none).decision true).apply unfinished.args) unfinished.customBuild =
            .ok r' ∧
        r' = r.given .crateType "-Z" ∧
        (r' = r ↔ ∀ f, unfinished.misled (some .crateType) = some f → r.Tells f "-Z") := by
  have apart : ComesApart ["--crate-name", "app", "-C", "extra-filename=-x", "--out-dir", "out",
      "--crate-type"] [.valued .crateName "app", .valued .codegen "extra-filename=-x",
      .valued .outDir "out"] (some .crateType) := ⟨by decide, rfl⟩
  exact ofArguments_apply rfl apart
    ((Recorder.fresh none).result_observe ⟨_, ofArguments_unfinished⟩)

/-- The arguments that a unit is compiled with can give another record than its own. -/
theorem not_ofArguments_apply_same :
    ¬∀ (recorder recorder' : Recorder) (u : CompileUnit) (d : Decision),
      (recorder.observe u).result = .ok (d, recorder') →
        ∃ r, InvocationRecord.ofArguments u.package u.args u.customBuild = .ok r ∧
          InvocationRecord.ofArguments u.package (d.apply u.args) u.customBuild = .ok r := by
  intro same
  obtain ⟨r, hr, applied⟩ := same _ _ unfinished _
    ((Recorder.fresh none).result_observe ⟨_, ofArguments_unfinished⟩)
  cases ofArguments_unfinished.symm.trans hr
  have given : InvocationRecord.ofArguments unfinished.package
      (((Recorder.fresh none).decision true).apply unfinished.args) unfinished.customBuild =
        .ok (unfinishedRecord.given .crateType "-Z") := rfl
  have tells := InvocationRecord.given_eq_iff.1 (Except.ok.inj (given.symm.trans applied))
  exact absurd tells (by decide)

end CompileUnit

end UnusedDeps
