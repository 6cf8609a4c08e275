import UnusedDeps.Proofs.Cargo.Handover
import UnusedDeps.Proofs.Options.Arguments

/-!
# Lock file and network

The commands of a run are read back: each one gives options, and those that say
what may be done with the lock file and the network should be the ones of the run.
Resolution and build are told them whatever the answers to earlier commands were.
The command that cleans is told the manifest, but never that the lock file has to
stay as it is or that there is no network. Main statement: `honoursFlags`.
-/

namespace UnusedDeps

/-! ### Commands read back -/

/-- The arguments that the command of a stage starts with. -/
def CargoStage.start : CargoStage → List String
  | .resolution => ["metadata", "--format-version", "1"]
  | .cleaning => ["clean"]
  | .checking => ["check", "--message-format", "short"]

theorem CargoStage.eq_of_start_append {stage stage' : CargoStage} {rest rest' : List String}
    (h : stage.start ++ rest = stage'.start ++ rest') : stage = stage' := by
  cases stage <;> cases stage' <;> first | rfl | simp [start] at h

namespace RunOptions

/-- The options that every command of a run is to be given. -/
def shared (o : RunOptions) : RunOptions :=
  { manifestPath := o.manifestPath, frozen := o.frozen, locked := o.locked, offline := o.offline }

/-- What the command of a stage gives of them. The command that cleans gives the manifest only. -/
def sharedAt (o : RunOptions) : CargoStage → RunOptions
  | .cleaning => { manifestPath := o.manifestPath }
  | .resolution | .checking => o.shared

/-- Whether the lock file may be changed and the network be used. -/
def IsUnrestricted (o : RunOptions) : Prop :=
  o.frozen = false ∧ o.locked = false ∧ o.offline = false

theorem sharedAt_cleaning_eq_shared_iff {o : RunOptions} :
    o.sharedAt .cleaning = o.shared ↔ o.IsUnrestricted := by
  constructor
  · intro same
    exact ⟨(congrArg frozen same).symm, (congrArg locked same).symm, (congrArg offline same).symm⟩
  · rintro ⟨frozen, locked, offline⟩
    rw [sharedAt, shared, frozen, locked, offline]

end RunOptions

namespace CargoCall

/-- Whether a command belongs to a stage and gives the options. -/
def Gives (call : CargoCall) (stage : CargoStage) (given : RunOptions) : Prop :=
  ∃ rest, call.args = stage.start ++ rest ∧ RunOptions.ofFlags? rest = some given

/-- Whether a command gives what every command is to be given. -/
def Honours (call : CargoCall) (o : RunOptions) : Prop :=
  ∃ stage given, call.Gives stage given ∧ given.shared = o.shared

variable {call : CargoCall} {stage stage' : CargoStage} {given given' o : RunOptions}

theorem Gives.unique (h : call.Gives stage given) (h' : call.Gives stage' given') :
    stage = stage' ∧ given = given' := by
  obtain ⟨rest, args, read⟩ := h
  obtain ⟨rest', args', read'⟩ := h'
  rw [args] at args'
  cases CargoStage.eq_of_start_append args'
  cases List.append_cancel_left args'
  exact ⟨rfl, Option.some.inj (read.symm.trans read')⟩

theorem Gives.honours_iff (h : call.Gives stage given) :
    call.Honours o ↔ given.shared = o.shared := by
  constructor
  · rintro ⟨_, _, gives, same⟩
    cases (h.unique gives).2
    exact same
  · exact fun same => ⟨stage, given, h, same⟩

end CargoCall

namespace BuildSetup

variable {s : BuildSetup} {g : Graph} {r : Recorder} {call : CargoCall}

/-! ### The commands of a step -/

theorem mem_calls_succeed {stage : CargoStage} {args : List String} :
    call ∈ (s.succeed stage args).calls ↔ call = ⟨args, [], []⟩ := by
  rw [succeed, Driven.mem_calls_bind, Driven.calls_command, List.mem_singleton]
  refine or_iff_left ?_
  rintro ⟨⟨result, spool⟩, -, further⟩
  dsimp only at further
  split at further <;> cases further

/-- The command that resolves the workspace. -/
def resolveCall (s : BuildSetup) : CargoCall := ⟨s.options.metadataArgs, [], []⟩

theorem mem_calls_resolve [Whereabouts] : call ∈ s.resolve.calls ↔ call = s.resolveCall := by
  rw [resolve, Driven.mem_calls_bind, mem_calls_succeed]
  refine or_iff_left ?_
  rintro ⟨result, -, further⟩
  obtain further | ⟨v, -, further⟩ := Driven.mem_calls_bind.1 further
  · cases further
  · cases further

theorem mem_calls_forceRebuild {names : List String} :
    call ∈ (s.forceRebuild names).calls ↔ names ≠ [] ∧ call = s.cleanCall names := by
  cases names with
  | nil => exact ⟨nofun, fun h => absurd rfl h.1⟩
  | cons name names =>
    rw [forceRebuild, if_neg (by simp), Driven.mem_calls_bind]
    constructor
    · rintro (told | ⟨_, -, told⟩)
      · cases told
      obtain told | ⟨result, -, further⟩ := Driven.mem_calls_bind.1 told
      · exact ⟨List.cons_ne_nil _ _, mem_calls_succeed.1 told⟩
      · cases further
    · rintro ⟨-, rfl⟩
      exact .inr ⟨(), rfl, Driven.mem_calls_bind.2 (.inl (mem_calls_succeed.2 rfl))⟩

theorem mem_calls_check {wrapper : String} {exe : Option String} {index : PackagesIndex} :
    call ∈ (s.check wrapper exe index).calls ↔ s.checkCall wrapper exe index = .ok call := by
  rw [check, Driven.mem_calls_bind]
  constructor
  · rintro (told | ⟨call', called, told⟩)
    · cases told
    obtain told | ⟨⟨result, spool⟩, -, further⟩ := Driven.mem_calls_bind.1 told
    · rw [Driven.calls_command, List.mem_singleton] at told
      exact told ▸ called
    -- What follows the answer is logged or a problem.
    dsimp only at further
    split at further
    · obtain further | ⟨_, -, further⟩ := Driven.mem_calls_bind.1 further
      · cases further
      · split at further <;> cases further
    · split at further <;> cases further
  · intro called
    refine .inr ⟨call, called, Driven.mem_calls_bind.2 (.inl ?_)⟩
    rw [Driven.calls_command]
    exact List.mem_singleton_self call

/-! ### The commands of a run -/

/-- Whether a build of a graph comes as far as cleaning the packages, of which there are some. -/
def Cleans [Whereabouts] (s : BuildSetup) (g : Graph) (names : List String) : Prop :=
  names ≠ [] ∧ ∃ wrapper index, s.wrapperPath? = some wrapper ∧
    PackagesIndex.ofGraph g = .ok index ∧ forcedNames index = .ok names

/-- Whether a build of a graph comes as far as the given build command. -/
def Checks [Whereabouts] (s : BuildSetup) (g : Graph) (exe : Option String) (call : CargoCall) :
    Prop :=
  ∃ wrapper index names, s.wrapperPath? = some wrapper ∧ PackagesIndex.ofGraph g = .ok index ∧
    forcedNames index = .ok names ∧ (names ≠ [] → s.Succeeds (s.cleanCall names)) ∧
    s.checkCall wrapper exe index = .ok call

theorem mem_calls_spooledFiles [Whereabouts] {exe : Option String} :
    call ∈ (s.spooledFiles g exe).calls ↔
      (∃ names, s.Cleans g names ∧ call = s.cleanCall names) ∨ s.Checks g exe call := by
  unfold spooledFiles Cleans Checks
  cases s.wrapperPath? with
  | none => simp [Driven.failWith, Driven.ofLogged]
  | some wrapper =>
    dsimp only
    rw [Driven.mem_calls_bind]
    constructor
    · rintro (told | ⟨index, hindex, told⟩)
      · cases told
      obtain told | ⟨names, hnames, told⟩ := Driven.mem_calls_bind.1 told
      · cases told
      obtain told | ⟨_, forced, told⟩ := Driven.mem_calls_bind.1 told
      · obtain ⟨some, cleans⟩ := mem_calls_forceRebuild.1 told
        exact .inl ⟨names, ⟨some, wrapper, index, rfl, hindex, hnames⟩, cleans⟩
      · exact .inr ⟨wrapper, index, names, rfl, hindex, hnames,
          result_forceRebuild_eq_ok_iff.1 forced, mem_calls_check.1 told⟩
    · rintro (⟨names, ⟨some, _, index, ⟨⟩, hindex, hnames⟩, rfl⟩ |
        ⟨_, index, names, ⟨⟩, hindex, hnames, cleans, called⟩)
      · refine .inr ⟨index, hindex, Driven.mem_calls_bind.2 (.inr ⟨names, hnames, ?_⟩)⟩
        exact Driven.mem_calls_bind.2 (.inl (mem_calls_forceRebuild.2 ⟨some, rfl⟩))
      · refine .inr ⟨index, hindex, Driven.mem_calls_bind.2 (.inr ⟨names, hnames, ?_⟩)⟩
        exact Driven.mem_calls_bind.2
          (.inr ⟨(), result_forceRebuild_eq_ok_iff.2 cleans, mem_calls_check.2 called⟩)

theorem calls_build [Whereabouts] :
    (s.build g r).records.calls = (s.spooledFiles g r.cargoExe).calls := by
  unfold build
  dsimp only
  split
  · rfl
  · split <;> rfl

/-- The commands of a run that resolves the workspace and builds a graph. -/
def commands [Whereabouts] (s : BuildSetup) (g : Graph) (r : Recorder) : List CargoCall :=
  s.resolve.calls ++ (s.build g r).records.calls

theorem mem_commands [Whereabouts] : call ∈ s.commands g r ↔
    call = s.resolveCall ∨ (∃ names, s.Cleans g names ∧ call = s.cleanCall names) ∨
      s.Checks g r.cargoExe call := by
  rw [commands, List.mem_append, mem_calls_resolve, calls_build, mem_calls_spooledFiles]

theorem cleanCall_mem_commands [Whereabouts] {names : List String} (r : Recorder)
    (h : s.Cleans g names) : s.cleanCall names ∈ s.commands g r :=
  mem_commands.2 (.inr (.inl ⟨names, h, rfl⟩))

/-! ### What the commands give -/

theorem gives_resolveCall (s : BuildSetup) :
    ∃ given, s.resolveCall.Gives .resolution given ∧ given.shared = s.options.shared := by
  have args : s.options.metadataArgs =
      CargoStage.resolution.start ++ s.options.metadataArgs.drop 3 := rfl
  exact ⟨_, ⟨_, args, RunOptions.ofFlags?_metadataArgs s.options⟩, rfl⟩

theorem gives_cleanCall (s : BuildSetup) (names : List String) :
    (s.cleanCall names).Gives .cleaning
      { packages := names, targetDir := s.options.targetDir,
        manifestPath := s.options.manifestPath, release := s.options.release } := by
  have args : s.options.cleanArgs names =
      CargoStage.cleaning.start ++ (s.options.cleanArgs names).drop 1 := rfl
  exact ⟨_, args, RunOptions.ofFlags?_cleanArgs s.options names⟩

theorem gives_checkCall {wrapper : String} {exe : Option String} {index : PackagesIndex}
    (h : s.checkCall wrapper exe index = .ok call) :
    ∃ given, call.Gives .checking given ∧ given.shared = s.options.shared := by
  obtain ⟨args, hargs, h⟩ := bind_eq_ok.1 h
  cases pure_eq_ok.1 h
  have read := RunOptions.ofFlags?_checkArgs hargs
  obtain ⟨talk, -, hargs⟩ := bind_eq_ok.1 hargs
  cases pure_eq_ok.1 hargs
  exact ⟨_, ⟨_, by simp only [List.append_assoc]; rfl, read⟩, rfl⟩

theorem honours_cleanCall_iff {names : List String} :
    (s.cleanCall names).Honours s.options ↔ s.options.IsUnrestricted := by
  rw [(s.gives_cleanCall names).honours_iff, ← RunOptions.sharedAt_cleaning_eq_shared_iff]
  rfl

theorem exists_gives [Whereabouts] (told : call ∈ s.commands g r) :
    ∃ stage given, call.Gives stage given ∧ given.shared = s.options.sharedAt stage := by
  rcases mem_commands.1 told with rfl | ⟨names, -, rfl⟩ | ⟨_, _, _, -, -, -, -, called⟩
  · exact ⟨.resolution, s.gives_resolveCall⟩
  · exact ⟨.cleaning, _, s.gives_cleanCall names, rfl⟩
  · exact ⟨.checking, gives_checkCall called⟩

/-- What the commands of a run say about the manifest, the lock file and the network. -/
structure HonoursFlags [Whereabouts] (s : BuildSetup) (g : Graph) (r : Recorder) : Prop where
  /-- Every command can be read back, and gives what its stage gives. -/
  given : ∀ call ∈ s.commands g r, ∃ stage given, call.Gives stage given ∧
    given.shared = s.options.sharedAt stage
  /-- All of them give what they should when there is nothing to say, or nothing to clean. -/
  all_iff : (∀ call ∈ s.commands g r, call.Honours s.options) ↔
    s.options.IsUnrestricted ∨ ∀ names, ¬s.Cleans g names

/-- Every command of a run honours the options on the lock file and the network, but for the one
that cleans. -/
theorem honoursFlags [Whereabouts] (s : BuildSetup) (g : Graph) (r : Recorder) :
    s.HonoursFlags g r where
  given := fun _ => exists_gives
  all_iff := by
    constructor
    · intro all
      by_contra neither
      obtain ⟨restricted, cleans⟩ := not_or.1 neither
      obtain ⟨names, cleans⟩ := not_forall_not.1 cleans
      exact restricted (honours_cleanCall_iff.1 (all _ (cleanCall_mem_commands r cleans)))
    · intro either call told
      rcases mem_commands.1 told with rfl | ⟨names, cleans, rfl⟩ | ⟨_, _, _, -, -, -, -, called⟩
      · exact ⟨_, s.gives_resolveCall⟩
      · exact honours_cleanCall_iff.2 (either.resolve_right fun none => none names cleans)
      · exact ⟨_, gives_checkCall called⟩

/-! ### A frozen lock file -/

/-- The small build, under a lock file that has to stay as it is. -/
def frozenSetup : BuildSetup := { appSetup with options := { frozen := true } }

theorem cleans_frozenSetup : ∃ names, frozenSetup.Cleans appGraph names := by
  obtain ⟨index, hindex, perm⟩ := PackagesIndex.exists_ofGraph isIndexable_appGraph
  have faithful := PackagesIndex.isFaithful_of_perm isIndexable_appGraph perm
  obtain ⟨names, hnames⟩ := exists_forcedNames faithful
  have listed : PackagesIndex.entry appPackage ∈ index :=
    perm.mem_iff.2 (List.mem_map_of_mem List.mem_cons_self)
  have named : "app" ∈ names := (mem_forcedNames hnames "app").2 ⟨_, listed, by decide, rfl⟩
  exact ⟨names, List.ne_nil_of_mem named, "wrapper", index, rfl, hindex, hnames⟩

/-- A frozen run with a local package gives a command that is not told of it. -/
theorem not_honours_frozenSetup :
    ¬∀ call ∈ frozenSetup.commands appGraph (.fresh none), call.Honours frozenSetup.options := by
  intro all
  obtain ⟨names, cleans⟩ := cleans_frozenSetup
  cases (honours_cleanCall_iff.1 (all _ (cleanCall_mem_commands _ cleans))).1

end BuildSetup

end UnusedDeps
