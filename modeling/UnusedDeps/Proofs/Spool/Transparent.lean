import UnusedDeps.Proofs.Failures.Readers
import UnusedDeps.Proofs.Files.Names
import UnusedDeps.Proofs.Spool.Origin
import UnusedDeps.Proofs.Wrapper

/-!
# What the wrapper adds to a call

Three things can come of a run of the wrapper. A unit whose arguments give no
record is refused before anything is done. A unit of a local package leaves one
record, and its compiler is told to write an artifact. Every other call is passed
on as it came. A record is therefore left exactly when the artifact that belongs
to it is asked for. Main statement: `transparent_run`.
-/

namespace UnusedDeps

/-- Whether variables are those of a process: neither their names nor their values hold a zero or
what has no bytes. -/
def Environment.IsOfProcess (env : Environment) : Prop :=
  ∀ e ∈ env, Path.nameFault? e.1 = none ∧ Path.nameFault? e.2 = none

/-- Whether exactly one of three statements holds. -/
def ExactlyOne (p q r : Prop) : Prop :=
  (p ∧ ¬q ∧ ¬r) ∨ (¬p ∧ q ∧ ¬r) ∨ (¬p ∧ ¬q ∧ r)

namespace Wrapper

/-! ### What can come of a run -/

namespace Run

/-- Whether a run ended with a problem before anything was done. -/
structure IsRefused (r : Run) (files : FileTree) : Prop where
  told : ∃ p, r.outcome.result = .error (.problem p)
  calls : r.calls = []
  spooled : r.spooled = []
  files : r.files = files

/-- Whether a run left a record of a local package in the spool directory, and nothing else, and
called the compiler so that it writes an artifact. -/
structure Records (r : Run) (files : FileTree) (file : Path) (args : List Value)
    (compile : FileTree → CompilerCall → Logged ToolResult) (record : InvocationRecord)
    (call : CompilerCall) : Prop where
  place : record.package.isLocal? = some true
  spooled : r.spooled = [record]
  written : files.write file (Spool.recordBytes record) = .ok r.files
  calls : r.calls = [call]
  args : call.args = args ++ [.text "-Z", .text "save-analysis"]
  config : Mapping.get? call.env Recorder.configVariable =
    some (Json.print .ascii Recorder.config)
  answered : r.outcome.result = (compile r.files call).result

/-- Whether a run left nothing and called the compiler as it was asked to, with no word of an
artifact. -/
structure PassesOn (r : Run) (files : FileTree) (args : List Value)
    (compile : FileTree → CompilerCall → Logged ToolResult) (call : CompilerCall) : Prop where
  spooled : r.spooled = []
  files : r.files = files
  calls : r.calls = [call]
  args : call.args = args
  config : Recorder.configVariable ∉ call.env.map (·.1)
  answered : r.outcome.result = (compile r.files call).result

variable {r : Run} {files : FileTree} {file : Path} {args : List Value}
  {compile : FileTree → CompilerCall → Logged ToolResult} {record : InvocationRecord}
  {call call' : CompilerCall}

theorem IsRefused.not_records (h : r.IsRefused files) :
    ¬r.Records files file args compile record call := by
  intro h'
  have called := h'.calls
  rw [h.calls] at called
  cases called

theorem IsRefused.not_passesOn (h : r.IsRefused files) : ¬r.PassesOn files args compile call := by
  intro h'
  have called := h'.calls
  rw [h.calls] at called
  cases called

theorem Records.not_passesOn (h : r.Records files file args compile record call) :
    ¬r.PassesOn files args compile call' := by
  intro h'
  have spooled := h'.spooled
  rw [h.spooled] at spooled
  cases spooled

end Run

/-- What a wrapper takes for granted: it is told of a context whose index has texts for identities,
and the file of a record can be written to the spool directory. -/
structure IsServed (files : FileTree) (env : Environment) (name : String)
    (context : Option WrapperContext) : Prop where
  loaded : WrapperContext.ofEnvironment files env = .ok context
  indexed : ∀ c ∈ context, ∀ e ∈ c.packages, e.2.IsTextual
  named : ∀ c ∈ context, (c.spoolDirectory.child (name ++ Spool.recordEnd)).fault? = none
  writable : ∀ c ∈ context, ∀ bytes, ∃ after,
    files.write (c.spoolDirectory.child (name ++ Spool.recordEnd)) bytes = .ok after

variable {files : FileTree} {env : Environment} {name : String} {args : List String}
  {compile : FileTree → CompilerCall → Logged ToolResult} {context : Option WrapperContext}
  {c : WrapperContext} {u : CompileUnit}

/-! ### The unit -/

theorem isText_of_mem_map (args : List String) : ∀ v ∈ args.map Value.text, v.IsText := by
  intro v hv
  obtain ⟨s, -, rfl⟩ := List.mem_map.1 hv
  exact ⟨s, rfl⟩

theorem isText_of_crateName? {vs : List Value} (texts : ∀ v ∈ vs, v.IsText) {v : Value}
    (h : crateName? vs = some v) : v.IsText := by
  fun_induction crateName? vs with
  | case1 =>
    cases h
    exact texts v (by simp)
  | case2 flag value rest _ ih => exact ih (fun w hw => texts w (List.mem_cons_of_mem _ hw)) h
  | case3 => cases h

theorem exists_package? [Whereabouts] (process : env.IsOfProcess) (c : WrapperContext) :
    ∃ package, c.package? env = .ok package := by
  have indexed : ∃ found, c.indexed? env = .ok found := by
    unfold WrapperContext.indexed?
    cases hs : Mapping.get? env "CARGO_MANIFEST_DIR" with
    | none => exact ⟨none, rfl⟩
    | some s =>
      have sound := Path.fault?_ofText (process _ (Mapping.mem_of_get? hs)).2
      dsimp only
      rw [sound]
      exact ⟨_, rfl⟩
  obtain ⟨found, hfound⟩ := indexed
  rw [WrapperContext.package?, hfound]
  exact ⟨_, rfl⟩

theorem isLocal?_isSome [Whereabouts] (served : IsServed files env name (some c))
    {package : PackageId}
    (h : c.package? env = .ok (some package)) : ∃ b, package.isLocal? = some b := by
  rcases WrapperContext.package?_cases h with ⟨directory, found⟩ | elsewhere
  · obtain ⟨source, hsource⟩ := (served.indexed c rfl _ (Mapping.mem_of_get? found)).source
    rw [PackageId.isLocal?, hsource]
    exact ⟨_, rfl⟩
  · exact ⟨false, elsewhere⟩

theorem isText_of_announces [Whereabouts] (announces : Announces c env (args.map .text) u) :
    ∀ v ∈ u.args, v.IsText := by
  rw [announces.args]
  exact isText_of_mem_map args

/-- Whether there is a unit to announce is always known. -/
theorem exists_unit? [Whereabouts] (served : IsServed files env name context)
    (process : env.IsOfProcess)
    (args : List String) : ∃ unit, unit? context (args.map .text) env = .ok unit := by
  cases context with
  | none => exact ⟨none, rfl⟩
  | some c =>
    obtain ⟨package, hpackage⟩ := exists_package? process c
    cases hcrate : (crateName? (args.map .text)).filter (· ≠ .null) with
    | none => cases package <;> exact ⟨none, by simp only [unit?, hpackage, hcrate]; rfl⟩
    | some v =>
      obtain ⟨s, rfl⟩ :=
        isText_of_crateName? (isText_of_mem_map args) (Option.filter_eq_some_iff.1 hcrate).1
      cases package with
      | none => exact ⟨none, by simp only [unit?, hpackage, hcrate]; rfl⟩
      | some package =>
        obtain ⟨b, hb⟩ := isLocal?_isSome served hpackage
        simp only [unit?, hpackage, hcrate, bind, Except.bind, orWrongType, Value.key?]
        split
        · exact ⟨none, rfl⟩
        · simp only [isBuildScript, CompileUnit.ofPackage, hb]
          exact ⟨_, rfl⟩

/-! ### One lemma for each kind of unit -/

/-- A call without a unit to announce is passed on. -/
theorem passesOn_of_unit?_none [Whereabouts]
    (loaded : WrapperContext.ofEnvironment files env = .ok context)
    (h : unit? context (args.map .text) env = .ok none) :
    (run files env name (args.map .text) compile).PassesOn files (args.map .text) compile
      ⟨args.map .text, []⟩ := by
  have planned : plan context (args.map .text) env = .answer (.transparent (args.map .text)) := by
    unfold plan
    rw [h]
    rfl
  have left : spoolAll files context name (.transparent (args.map .text)) = .ok files := by
    cases context <;> rfl
  have ran : run files env name (args.map .text) compile =
      ⟨[⟨args.map .text, []⟩], [], files, compile files ⟨args.map .text, []⟩⟩ := by
    rw [run, loaded]
    simp only [planned, Logged.answer, left]
    rfl
  rw [ran]
  exact ⟨rfl, rfl, rfl, rfl, List.not_mem_nil, rfl⟩

/-- A unit whose arguments give no record is refused. -/
theorem isRefused_of_not_isParsed [Whereabouts]
    (loaded : WrapperContext.ofEnvironment files env = .ok context)
    (h : unit? context (args.map .text) env = .ok (some (c, u))) (unparsed : ¬u.IsParsed) :
    (run files env name (args.map .text) compile).IsRefused files := by
  have texts := isText_of_announces (announces_of_unit? h).2
  obtain ⟨f, hf⟩ : ∃ f, InvocationRecord.ofArguments u.package u.args u.customBuild = .error f := by
    cases hrecord : InvocationRecord.ofArguments u.package u.args u.customBuild with
    | error f => exact ⟨f, rfl⟩
    | ok record => exact absurd ⟨record, hrecord⟩ unparsed
  obtain ⟨p, rfl⟩ := InvocationRecord.told_ofArguments u.package texts u.customBuild f hf
  have observed : ((Recorder.fresh c.cargoExe).observe u).result = .error (.problem p) := by
    unfold Recorder.observe
    rw [Logged.result_bind, Logged.result_ofExcept, hf]
    rfl
  have planned : (plan context (args.map .text) env).result = .error (.problem p) := by
    unfold plan
    rw [Logged.result_bind, Logged.result_ofExcept, h]
    show (_ >>= _ : Logged Plan).result = _
    rw [Logged.result_bind, observed]
    rfl
  rw [run, loaded]
  simp only [planned]
  exact ⟨⟨p, rfl⟩, rfl, rfl, rfl⟩

/-- A unit of another package is passed on. -/
theorem passesOn_of_foreign [Whereabouts]
    (loaded : WrapperContext.ofEnvironment files env = .ok context)
    (h : unit? context (args.map .text) env = .ok (some (c, u))) (parsed : u.IsParsed)
    (foreign : u.package.isLocal? = some false) :
    ∃ call, (run files env name (args.map .text) compile).PassesOn files (args.map .text) compile
      call := by
  obtain ⟨rfl, announces⟩ := announces_of_unit? h
  obtain ⟨b, hb, place⟩ := announces.place
  cases hb.symm.trans foreign
  have kept : u.kept? = none := by
    rw [CompileUnit.kept?, place]
    rfl
  have truthy : u.isLocal.isTruthy = false := by
    rw [place]
    rfl
  have planned := result_plan h parsed
  rw [kept, truthy] at planned
  have applied : (args.map Value.text) ++ ([] : List String).map Value.text = args.map .text :=
    List.append_nil _
  have other : Recorder.configVariable ∉
      (c.cargoExe.map fun exe => ("CARGO", exe)).toList.map (·.1) := by
    cases c.cargoExe with
    | none => exact List.not_mem_nil
    | some exe =>
      have apart : Recorder.configVariable ≠ "CARGO" := by decide
      exact List.not_mem_cons_of_ne_of_not_mem apart List.not_mem_nil
  rw [run, loaded]
  simp only [planned]
  exact ⟨_, rfl, rfl, rfl, applied, other, rfl⟩

/-- A unit of a local package is recorded. -/
theorem records_of_local [Whereabouts] (served : IsServed files env name context)
    (h : unit? context (args.map .text) env = .ok (some (c, u))) (parsed : u.IsParsed)
    (here : u.package.isLocal? = some true) :
    ∃ record call, (run files env name (args.map .text) compile).Records files
      (c.spoolDirectory.child (name ++ Spool.recordEnd)) (args.map .text) compile record call := by
  obtain ⟨rfl, announces⟩ := announces_of_unit? h
  obtain ⟨b, hb, place⟩ := announces.place
  cases hb.symm.trans here
  obtain ⟨record, hrecord⟩ := parsed
  have package : record.package = u.package :=
    (InvocationRecord.isText_of_ofArguments (isText_of_announces announces) hrecord).1
  have truthy : u.isLocal.isTruthy = true := by
    rw [place]
    rfl
  have kept : u.kept? = some record := by
    rw [CompileUnit.kept?, truthy, hrecord]
    rfl
  have planned := result_plan h ⟨record, hrecord⟩
  rw [kept, truthy] at planned
  obtain ⟨after, written⟩ := served.writable c rfl (Spool.recordBytes record)
  have spooled : spool files c.spoolDirectory name record = .ok after := by
    unfold spool
    dsimp only
    rw [served.named c rfl, written]
  have left (call : CompilerCall) : spoolAll files (some c) name ⟨[record], call⟩ = .ok after := by
    rw [spoolAll]
    simp only [List.foldlM_cons, spooled, List.foldlM_nil]
    rfl
  have config : Mapping.get? ((Recorder.fresh c.cargoExe).decision true).env
      Recorder.configVariable = some (Json.print .ascii Recorder.config) := by
    have told : (Recorder.fresh c.cargoExe).cargoExe = c.cargoExe := rfl
    rw [Recorder.decision, told]
    cases c.cargoExe with
    | none => rfl
    | some exe => rfl
  rw [run, served.loaded]
  simp only [planned, Option.toList_some, left]
  exact ⟨record, _, package ▸ here, rfl, written, rfl, rfl, config, rfl⟩

/-! ### Every run -/

/-- Whether a run of the wrapper with the given arguments adds nothing but a record and the artifact
that belongs to it. -/
structure IsTransparent (files : FileTree) (name : String) (args : List Value)
    (compile : FileTree → CompilerCall → Logged ToolResult) (context : Option WrapperContext)
    (r : Run) : Prop where
  one : ExactlyOne (r.IsRefused files)
    (∃ c ∈ context, ∃ record call,
      r.Records files (c.spoolDirectory.child (name ++ Spool.recordEnd)) args compile record call)
    (∃ call, r.PassesOn files args compile call)
  configured : r.spooled ≠ [] ↔ ∃ call ∈ r.calls, Recorder.configVariable ∈ call.env.map (·.1)
  instrumented : r.spooled ≠ [] ↔
    ∃ call ∈ r.calls, call.args = args ++ [.text "-Z", .text "save-analysis"]

section

variable {r : Run} {call : CompilerCall}

theorem isTransparent_of_isRefused (args : List Value) (h : r.IsRefused files) :
    IsTransparent files name args compile context r where
  one := by
    refine .inl ⟨h, ?_, ?_⟩
    · rintro ⟨c, -, record, call, records⟩
      exact h.not_records records
    · rintro ⟨call, passes⟩
      exact h.not_passesOn passes
  configured := by simp [h.spooled, h.calls]
  instrumented := by simp [h.spooled, h.calls]

theorem isTransparent_of_records {args : List Value} {record : InvocationRecord}
    (hc : context = some c)
    (h : r.Records files (c.spoolDirectory.child (name ++ Spool.recordEnd)) args compile record
      call) : IsTransparent files name args compile context r where
  one := by
    refine .inr (.inl ⟨fun refused => refused.not_records h, ⟨c, hc, record, call, h⟩, ?_⟩)
    rintro ⟨call', passes⟩
    exact h.not_passesOn passes
  configured := by
    have told := List.mem_map_of_mem (f := Prod.fst) (Mapping.mem_of_get? h.config)
    simpa [h.spooled, h.calls] using told
  instrumented := by simp [h.spooled, h.calls, h.args]

theorem isTransparent_of_passesOn {args : List Value} (h : r.PassesOn files args compile call) :
    IsTransparent files name args compile context r where
  one := by
    refine .inr (.inr ⟨fun refused => refused.not_passesOn h, ?_, ⟨call, h⟩⟩)
    rintro ⟨c, -, record, call', records⟩
    exact records.not_passesOn h
  configured := by simpa [h.spooled, h.calls] using h.config
  instrumented := by simp [h.spooled, h.calls, h.args]

end

/-- A run of the wrapper refuses the unit, records it and asks for its artifact, or passes the call
on as it came. -/
theorem transparent_run [Whereabouts] (served : IsServed files env name context)
    (process : env.IsOfProcess)
    (args : List String) (compile : FileTree → CompilerCall → Logged ToolResult) :
    IsTransparent files name (args.map .text) compile context
      (run files env name (args.map .text) compile) := by
  obtain ⟨unit, hunit⟩ := exists_unit? served process args
  cases unit with
  | none => exact isTransparent_of_passesOn (passesOn_of_unit?_none served.loaded hunit)
  | some unit =>
    obtain ⟨c, u⟩ := unit
    obtain ⟨hc, announces⟩ := announces_of_unit? hunit
    by_cases parsed : u.IsParsed
    · obtain ⟨b, place, -⟩ := announces.place
      cases b with
      | false =>
        obtain ⟨call, passes⟩ := passesOn_of_foreign served.loaded hunit parsed place
        exact isTransparent_of_passesOn passes
      | true =>
        obtain ⟨record, call, records⟩ := records_of_local served hunit parsed place
        exact isTransparent_of_records hc records
    · exact isTransparent_of_isRefused _ (isRefused_of_not_isParsed served.loaded hunit parsed)

/-! ### A unit of a package in the index -/

def appDirectory : Path := Path.ofText "/spool"

def appIndex : PackagesIndex :=
  [(Path.ofText "/app", ⟨.text "app", .text "0.1.0", .text "path+file:///app"⟩)]

/-- A tree with nothing but a spool directory that holds the index. -/
def appFiles : FileTree :=
  ⟨[(⟨true, ["spool", "packages.json"]⟩, .file (Text.utf8 appIndex.toText).toByteArray false),
    (⟨true, ["spool"]⟩, .directory)]⟩

def appEnv : Environment := [("UDEPS_SPOOL_DIR", "/spool"), ("CARGO_MANIFEST_DIR", "/app/src/..")]

theorem isFaithful_appIndex : appIndex.IsFaithful := by
  have text {s : String} (h : Text.IsShown s) : (Value.text s).IsFaithfulText :=
    ⟨s, rfl, h.isFaithful⟩
  have directory : Text.IsShown (Path.ofText "/app").text := by decide +kernel
  have id : (⟨.text "app", .text "0.1.0", .text "path+file:///app"⟩ : PackageId).IsFaithful :=
    ⟨text (by decide), text (by decide), text (by decide)⟩
  exact List.forall_mem_singleton.2 ⟨directory.isFaithful, id⟩

theorem holds_appFiles : appFiles.Holds appDirectory [(Spool.indexName, appIndex.toText)] where
  directory := rfl
  names := by decide +kernel
  files := List.forall_mem_singleton.2 rfl
  sound := List.forall_mem_singleton.2 (by decide +kernel)
  shown := List.forall_mem_singleton.2 (PackagesIndex.isShown_toText isFaithful_appIndex)

theorem isServed_appFiles : IsServed appFiles appEnv "1" (some ⟨appDirectory, appIndex, none⟩) where
  loaded := by
    have sorted : appIndex.sorted = appIndex := List.mergeSort_singleton _
    have back : PackagesIndex.ofText appIndex.toText = .ok appIndex := by
      rw [PackagesIndex.ofText_toText isFaithful_appIndex, sorted]
      rfl
    exact WrapperContext.ofEnvironment_eq holds_appFiles rfl (List.mem_singleton_self _) back
  indexed := by
    intro c hc
    cases hc
    exact List.forall_mem_singleton.2 ⟨⟨_, rfl⟩, ⟨_, rfl⟩, ⟨_, rfl⟩⟩
  named := by
    intro c hc
    cases hc
    decide +kernel
  writable := by
    intro c hc bytes
    cases hc
    exact ⟨_, rfl⟩

theorem isOfProcess_appEnv : appEnv.IsOfProcess := by
  unfold Environment.IsOfProcess
  decide

def appArguments : List String :=
  ["--crate-name", "app", "-C", "extra-filename=-1", "--out-dir", "out"]

def failingCompiler (_ : FileTree) (_ : CompilerCall) : Logged ToolResult :=
  .answer ⟨"rustc", [], 3, "", ""⟩

def appRun : Run := run appFiles appEnv "1" (appArguments.map .text) failingCompiler

theorem records_appRun : ∃ record call, appRun.Records appFiles
    (appDirectory.child ("1" ++ Spool.recordEnd)) (appArguments.map .text) failingCompiler record
      call := by
  have unit : ∃ u, unit? (some ⟨appDirectory, appIndex, none⟩) (appArguments.map .text) appEnv =
      .ok (some (⟨appDirectory, appIndex, none⟩, u)) ∧ u.IsParsed ∧
        u.package.isLocal? = some true := ⟨_, rfl, ⟨_, rfl⟩, rfl⟩
  obtain ⟨u, hu, parsed, here⟩ := unit
  exact records_of_local isServed_appFiles hu parsed here

/-- A unit whose variables spell the directory of a package in another way is recorded and asked for
its artifact, also when the compiler fails then. -/
theorem transparent_run_app :
    IsServed appFiles appEnv "1" (some ⟨appDirectory, appIndex, none⟩) ∧ appEnv.IsOfProcess ∧
      IsTransparent appFiles "1" (appArguments.map .text) failingCompiler
        (some ⟨appDirectory, appIndex, none⟩) appRun ∧
      ∃ record call, appRun.Records appFiles (appDirectory.child ("1" ++ Spool.recordEnd))
        (appArguments.map .text) failingCompiler record call :=
  ⟨isServed_appFiles, isOfProcess_appEnv,
    transparent_run isServed_appFiles isOfProcess_appEnv appArguments failingCompiler,
    records_appRun⟩

end Wrapper

end UnusedDeps
