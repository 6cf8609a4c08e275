import UnusedDeps.Proofs.Cargo.Replay
import UnusedDeps.Proofs.Spool.Origin
import UnusedDeps.Proofs.Text.Sorted

/-!
# Cleaned packages

A build that has an end returns records of local packages only, and it told the
toolchain to clean every one of these packages before it told it to build. The
names of the packages to be cleaned are taken from the index that the wrappers
look their packages up in, so what a wrapper takes for local is cleaned. Main
statement: `BuildSetup.cleaned_build`.
-/

namespace UnusedDeps

/-! ### Packages to be cleaned -/

theorem mem_of_filterMapM_eq_ok {ε α β : Type} {f : α → Except ε (Option β)} {xs : List α}
    {ys : List β} (h : xs.filterMapM f = .ok ys) (y : β) :
    y ∈ ys ↔ ∃ x ∈ xs, f x = .ok (some y) := by
  induction xs generalizing ys with
  | nil =>
    cases h
    simp
  | cons x xs ih =>
    rw [List.filterMapM_cons] at h
    obtain ⟨found, hx, h⟩ := bind_eq_ok.1 h
    cases found with
    | none =>
      rw [ih h, List.exists_mem_cons_iff, hx]
      simp
    | some z =>
      obtain ⟨rest, hrest, h⟩ := bind_eq_ok.1 h
      cases pure_eq_ok.1 h
      rw [List.mem_cons, ih hrest, List.exists_mem_cons_iff, hx]
      simp [eq_comm]

namespace BuildSetup

theorem mem_forcedPackages {index : PackagesIndex} {ids : List PackageId}
    (h : forcedPackages index = .ok ids) (id : PackageId) :
    id ∈ ids ↔ (∃ e ∈ index, e.2 = id) ∧ id.isLocal? = some true := by
  obtain ⟨forced, hforced, h⟩ := bind_eq_ok.1 h
  have forces (id' : PackageId) :
      (do return if ← Recorder.forcesRebuild id' then some id' else none :
        Except Fault (Option PackageId)) = .ok (some id) ↔
          id' = id ∧ id.isLocal? = some true := by
    rw [bind_eq_ok]
    constructor
    · rintro ⟨b, hb, h⟩
      cases b with
      | false => cases h
      | true =>
        cases h
        exact ⟨rfl, orWrongType_eq_ok.1 hb⟩
    · rintro ⟨rfl, hlocal⟩
      exact ⟨true, orWrongType_eq_ok.2 hlocal, rfl⟩
  rw [mem_sortByKeys? (orWrongType_eq_ok.1 h), mem_of_filterMapM_eq_ok hforced]
  simp only [forces, List.mem_map]
  constructor
  · rintro ⟨_, ⟨e, he, rfl⟩, rfl, hlocal⟩
    exact ⟨⟨e, he, rfl⟩, hlocal⟩
  · rintro ⟨⟨e, he, rfl⟩, hlocal⟩
    exact ⟨e.2, ⟨e, he, rfl⟩, rfl, hlocal⟩

theorem argumentName_eq_ok {id : PackageId} {name : String} :
    argumentName id = .ok name ↔ id.name = .text name := by
  unfold argumentName
  cases id.name <;> simp

/-- The names of the packages to be cleaned are those of the local packages in the index. -/
theorem mem_forcedNames {index : PackagesIndex} {names : List String}
    (h : forcedNames index = .ok names) (name : String) :
    name ∈ names ↔ ∃ e ∈ index, e.2.isLocal? = some true ∧ e.2.name = .text name := by
  obtain ⟨ids, hids, h⟩ := bind_eq_ok.1 h
  obtain ⟨ns, hns, h⟩ := bind_eq_ok.1 h
  cases pure_eq_ok.1 h
  have named := mapM_eq_ok.1 hns
  rw [Text.mem_sorted]
  constructor
  · intro hname
    obtain ⟨id, hid, hn⟩ := exists_left_of_forall₂ named hname
    obtain ⟨⟨e, he, rfl⟩, hlocal⟩ := (mem_forcedPackages hids id).1 hid
    exact ⟨e, he, hlocal, argumentName_eq_ok.1 hn⟩
  · rintro ⟨e, he, hlocal, hname⟩
    have hid := (mem_forcedPackages hids e.2).2 ⟨⟨e, he, rfl⟩, hlocal⟩
    obtain ⟨n, hn, hof⟩ := exists_right_of_forall₂ named hid
    rw [argumentName_eq_ok, hname, Value.text.injEq] at hof
    exact hof ▸ hn

/-- They come in increasing order, each once. -/
theorem pairwise_forcedNames {index : PackagesIndex} {names : List String}
    (h : forcedNames index = .ok names) (ids : ∀ e ∈ index, e.2.IsFaithful) :
    names.Pairwise fun m n => Text.codes m < Text.codes n := by
  have members := mem_forcedNames h
  obtain ⟨packages, -, h⟩ := bind_eq_ok.1 h
  obtain ⟨ns, -, h⟩ := bind_eq_ok.1 h
  cases pure_eq_ok.1 h
  refine Text.pairwise_sorted fun s hs => ?_
  obtain ⟨e, he, -, hname⟩ := (members s).1 ((Text.mem_sorted s ns).2 hs)
  obtain ⟨t, ht, faithful⟩ := (ids e he).name
  cases hname.symm.trans ht
  exact faithful.coded

theorem exists_package_of_mem_index [Whereabouts] {g : Graph} {index : PackagesIndex}
    (h : PackagesIndex.ofGraph g = .ok index) {e : Path × PackageId} (he : e ∈ index) :
    ∃ p ∈ g.packages, e.2 = p.id := by
  obtain ⟨ps, hps, h⟩ := bind_eq_ok.1 h
  obtain ⟨entries, hentries, h⟩ := bind_eq_ok.1 h
  cases pure_eq_ok.1 h
  obtain ⟨p, hp, hof⟩ := exists_left_of_forall₂ (mapM_eq_ok.1 hentries)
    (Mapping.mem_of_mem_ofPairs he)
  refine ⟨p, (mem_sortByKeys? (orWrongType_eq_ok.1 hps) p).1 hp, ?_⟩
  unfold PackagesIndex.entryOf at hof
  split at hof
  · cases hof
  · exact congrArg Prod.snd (Except.ok.inj hof).symm

/-! ### The commands of a build -/

variable {s : BuildSetup}

/-- The command that cleans packages. -/
def cleanCall (s : BuildSetup) (names : List String) : CargoCall :=
  ⟨s.options.cleanArgs names, [], []⟩

theorem exists_args_cleanCall (s : BuildSetup) : ∃ rest, ∀ names, (s.cleanCall names).args =
    "clean" :: names.flatMap (fun name => ["--package", name]) ++ rest := by
  refine ⟨RunOptions.valued "--target-dir" (s.options.targetDir.map (·.text)) ++
    RunOptions.valued "--manifest-path" (s.options.manifestPath.map (·.text)) ++
    RunOptions.flag "--release" s.options.release, fun names => ?_⟩
  simp only [cleanCall, RunOptions.cleanArgs, RunOptions.repeated, List.append_assoc]
  rfl

/-- Whether the toolchain carries a command out with success. -/
def Succeeds (s : BuildSetup) (call : CargoCall) : Prop :=
  ∃ result spool, s.toolchain.answer call = .ended result spool ∧ result.code = 0

theorem calls_bind_of_ok {α β : Type} {x : Driven α} {f : α → Driven β} {a : α}
    (h : x.outcome.result = .ok a) : (x >>= f).calls = x.calls ++ (f a).calls := by
  rw [Driven.calls_bind, h]

theorem of_result_command {t : Toolchain} {call : CargoCall} {result : ToolResult}
    {spool : SpoolFiles} (h : (Driven.command t call).outcome.result = .ok (result, spool)) :
    t.answer call = .ended result spool ∧ (Driven.command t call).calls = [call] := by
  refine ⟨?_, Driven.calls_command t call⟩
  unfold Driven.command at h
  cases answer : t.answer call with
  | ended result' spool' =>
    rw [answer] at h
    cases h
    rfl
  | missing tool configured =>
    rw [answer] at h
    cases h
  | aborted result' =>
    rw [answer] at h
    cases h

theorem of_result_succeed {stage : CargoStage} {args : List String} {result : ToolResult}
    (h : (s.succeed stage args).outcome.result = .ok result) :
    s.Succeeds ⟨args, [], []⟩ ∧ (s.succeed stage args).calls = [⟨args, [], []⟩] := by
  unfold succeed at h ⊢
  obtain ⟨⟨result', spool⟩, told, h⟩ := Driven.result_bind_eq_ok.1 h
  obtain ⟨answer, calls⟩ := of_result_command told
  rw [calls_bind_of_ok told, calls]
  dsimp only at h ⊢
  split at h
  · rename_i ended
    refine ⟨⟨result', spool, answer, ended⟩, ?_⟩
    rw [if_pos ended]
    rfl
  · cases h

/-- Packages are cleaned by one command that succeeds, unless there are none. -/
theorem of_result_forceRebuild {names : List String}
    (h : (s.forceRebuild names).outcome.result = .ok ()) :
    (s.forceRebuild names).calls = (if names = [] then [] else [s.cleanCall names]) ∧
      (names ≠ [] → s.Succeeds (s.cleanCall names)) := by
  cases names with
  | nil => exact ⟨rfl, fun some => absurd rfl some⟩
  | cons name names =>
    unfold forceRebuild at h ⊢
    obtain ⟨_, logged, h⟩ := Driven.result_bind_eq_ok.1 h
    obtain ⟨result, cleaned, -⟩ := Driven.result_bind_eq_ok.1 h
    obtain ⟨succeeds, calls⟩ := of_result_succeed cleaned
    refine ⟨?_, fun _ => succeeds⟩
    rw [if_neg (by simp), if_neg (by simp), calls_bind_of_ok logged, calls_bind_of_ok cleaned,
      calls]
    rfl

theorem of_result_check {wrapper : String} {exe : Option String} {index : PackagesIndex}
    {files : List ByteArray} (h : (s.check wrapper exe index).outcome.result = .ok files) :
    ∃ call result spool, s.checkCall wrapper exe index = .ok call ∧
      s.toolchain.answer call = .ended result spool ∧ result.code = 0 ∧
      files = recordFiles spool ∧ (s.check wrapper exe index).calls = [call] := by
  unfold check at h ⊢
  obtain ⟨call, called, h⟩ := Driven.result_bind_eq_ok.1 h
  obtain ⟨⟨result, spool⟩, told, h⟩ := Driven.result_bind_eq_ok.1 h
  obtain ⟨answer, calls⟩ := of_result_command told
  refine ⟨call, result, spool, called, answer, ?_⟩
  rw [calls_bind_of_ok called, calls_bind_of_ok told, calls]
  dsimp only at h ⊢
  -- What the command said is logged or not; either way no further command is given.
  split at h <;> rename_i said <;> split at h <;> rename_i ended
  · cases h
    refine ⟨ended, rfl, ?_⟩
    rw [if_pos said, if_pos ended]
    rfl
  · cases h
  · cases h
    refine ⟨ended, rfl, ?_⟩
    rw [if_neg said, if_pos ended]
    rfl
  · cases h

theorem head?_checkCall {wrapper : String} {exe : Option String} {index : PackagesIndex}
    {call : CargoCall} (h : s.checkCall wrapper exe index = .ok call) :
    call.args.head? = some "check" := by
  obtain ⟨args, hargs, h⟩ := bind_eq_ok.1 h
  obtain ⟨verbose, -, hargs⟩ := bind_eq_ok.1 hargs
  cases pure_eq_ok.1 h
  cases pure_eq_ok.1 hargs
  rfl

theorem of_result_spooledFiles [Whereabouts] {g : Graph} {exe : Option String}
    {files : List ByteArray} (h : (s.spooledFiles g exe).outcome.result = .ok files) :
    ∃ wrapper index names call result spool, PackagesIndex.ofGraph g = .ok index ∧
      forcedNames index = .ok names ∧ (s.forceRebuild names).outcome.result = .ok () ∧
      s.checkCall wrapper exe index = .ok call ∧
      s.toolchain.answer call = .ended result spool ∧ result.code = 0 ∧
      files = recordFiles spool ∧
      (s.spooledFiles g exe).calls = (s.forceRebuild names).calls ++ [call] := by
  unfold spooledFiles at h ⊢
  split at h
  · cases h
  · rename_i wrapper _
    obtain ⟨index, hindex, h⟩ := Driven.result_bind_eq_ok.1 h
    obtain ⟨names, hnames, h⟩ := Driven.result_bind_eq_ok.1 h
    obtain ⟨_, forced, h⟩ := Driven.result_bind_eq_ok.1 h
    obtain ⟨call, result, spool, called, answer, ended, listed, calls⟩ := of_result_check h
    refine ⟨wrapper, index, names, call, result, spool, hindex, hnames, forced, called, answer,
      ended, listed, ?_⟩
    rw [calls_bind_of_ok hindex, calls_bind_of_ok hnames, calls_bind_of_ok forced, calls]
    rfl

theorem of_appendFiles {r after : Recorder} {files : List ByteArray}
    (h : appendFiles r files = (after, .ok ())) : ∃ records, after = r.appendAll records ∧
      List.Forall₂ (fun bytes record => Spool.readRecord bytes = .ok record) files records := by
  induction files generalizing r with
  | nil =>
    cases h
    exact ⟨[], (Recorder.appendAll_nil _).symm, .nil⟩
  | cons bytes files ih =>
    unfold appendFiles at h
    split at h
    · cases h
    · rename_i record hr
      obtain ⟨records, rfl, hrecords⟩ := ih h
      exact ⟨record :: records, Recorder.appendAll_append r [record] records, .cons hr hrecords⟩

theorem mem_recordFiles {spool : SpoolFiles} {bytes : ByteArray} (h : bytes ∈ recordFiles spool) :
    ∃ f ∈ spool, Spool.isRecordName f.1 = true ∧ f.2 = bytes := by
  obtain ⟨f, hf, rfl⟩ := List.mem_map.1 h
  obtain ⟨hf, named⟩ := List.mem_filter.1 ((mem_sortByKey _ _ _).1 hf)
  exact ⟨f, hf, named, rfl⟩

/-- The files of a build that has an end hold its records, and it gave the commands that led to
them. -/
theorem of_result_build [Whereabouts] {g : Graph} {exe : Option String}
    {records : List InvocationRecord}
    (h : (s.build g (Recorder.fresh exe)).records.outcome.result = .ok records) :
    ∃ files, (s.spooledFiles g exe).outcome.result = .ok files ∧
      (s.build g (Recorder.fresh exe)).records.calls = (s.spooledFiles g exe).calls ∧
      List.Forall₂ (fun bytes record => Spool.readRecord bytes = .ok record) files records := by
  have told : (Recorder.fresh exe).cargoExe = exe := rfl
  unfold build at h ⊢
  rw [told] at h ⊢
  cases spooled : (s.spooledFiles g exe).outcome.result with
  | error f =>
    simp only [spooled] at h
    cases h
  | ok files =>
    simp only [spooled] at h ⊢
    cases hread : appendFiles (Recorder.fresh exe) files with
    | mk after ended =>
      simp only [hread] at h ⊢
      cases ended with
      | error f => cases h
      | ok u =>
        obtain ⟨read, rfl, each⟩ := of_appendFiles hread
        have all : read = records := Except.ok.inj h
        exact ⟨files, rfl, rfl, all ▸ each⟩

end BuildSetup

/-! ### No stale artifact -/

namespace BuildSetup

/-- Whether only wrappers leave record files when the toolchain is told to build a graph: every one
of them is left under the index that the build put into the spool directory. -/
def SpoolsRecords [Whereabouts] (s : BuildSetup) (g : Graph) (exe : Option String) : Prop :=
  ∀ wrapper index call result spool, PackagesIndex.ofGraph g = .ok index →
    s.checkCall wrapper exe index = .ok call → s.toolchain.answer call = .ended result spool →
    ∀ f ∈ spool, Spool.isRecordName f.1 = true → Spool.IsLeftUnder index.toText f.2

/-- What a build with some calls and records did about the packages that it had to clean. -/
structure Cleaned (s : BuildSetup) (g : Graph) (names : List String) (calls : List CargoCall)
    (records : List InvocationRecord) : Prop where
  /-- Before the build there is at most the one command that cleans. -/
  commands : ∃ check, check.args.head? = some "check" ∧
    calls = (if names = [] then [] else [s.cleanCall names]) ++ [check]
  /-- That command names these packages, and has the same further options whatever they are. -/
  arguments : ∃ rest, ∀ others, (s.cleanCall others).args =
    "clean" :: others.flatMap (fun name => ["--package", name]) ++ rest
  succeeds : names ≠ [] → s.Succeeds (s.cleanCall names)
  increasing : names.Pairwise fun m n => Text.codes m < Text.codes n
  named : ∀ name ∈ names, ∃ p ∈ g.packages, p.id.isLocal? = some true ∧ p.id.name = .text name
  /-- Nothing is cleaned when no package is local. -/
  silent : (∀ p ∈ g.packages, p.id.isLocal? ≠ some true) → names = []
  records : ∀ r ∈ records, ∃ p ∈ g.packages, r.package = p.id ∧ p.id.isLocal? = some true ∧
    ∃ name ∈ names, p.id.name = .text name

/-- Every record of a build is one of a local package, whose units were compiled again. -/
theorem cleaned_build [Whereabouts] {s : BuildSetup} {g : Graph}
    (ids : ∀ p ∈ g.packages, p.id.IsFaithful)
    {exe : Option String} (spools : s.SpoolsRecords g exe) {records : List InvocationRecord}
    (h : (s.build g (Recorder.fresh exe)).records.outcome.result = .ok records) :
    ∃ names, s.Cleaned g names (s.build g (Recorder.fresh exe)).records.calls records := by
  obtain ⟨contents, spooled, told, each⟩ := of_result_build h
  obtain ⟨wrapper, index, names, call, result, spool, hindex, hnames, forced, called, answer,
    ended, rfl, calls⟩ := of_result_spooledFiles spooled
  obtain ⟨cleaned, succeeds⟩ := of_result_forceRebuild forced
  have entries : ∀ e ∈ index, e.2.IsFaithful := fun e he => by
    obtain ⟨p, hp, heq⟩ := exists_package_of_mem_index hindex he
    exact heq ▸ ids p hp
  have named : ∀ name ∈ names, ∃ p ∈ g.packages, p.id.isLocal? = some true ∧
      p.id.name = .text name := fun name hname => by
    obtain ⟨e, he, isLocal, hof⟩ := (mem_forcedNames hnames name).1 hname
    obtain ⟨p, hp, heq⟩ := exists_package_of_mem_index hindex he
    rw [heq] at isLocal hof
    exact ⟨p, hp, isLocal, hof⟩
  refine ⟨names, ?_⟩
  exact
  { commands := ⟨call, head?_checkCall called, by rw [told, calls, cleaned]⟩
    arguments := s.exists_args_cleanCall
    succeeds := succeeds
    increasing := pairwise_forcedNames hnames entries
    named := named
    silent := fun none => by
      refine List.eq_nil_iff_forall_not_mem.2 fun name hname => ?_
      obtain ⟨p, hp, isLocal, -⟩ := named name hname
      exact none p hp isLocal
    records := fun r hr => by
      obtain ⟨t, ht, read⟩ := exists_left_of_forall₂ each hr
      obtain ⟨f, hf, isRecord, rfl⟩ := mem_recordFiles ht
      -- The index that the wrapper read is the one that the cleaned names were taken from.
      have left := spools wrapper index call result spool hindex called answer f hf isRecord
      obtain ⟨isLocal, e, he, heq⟩ := Spool.of_isLeftUnder entries left read
      obtain ⟨p, hp, hid⟩ := exists_package_of_mem_index hindex he
      obtain ⟨name, hname, -⟩ := (entries e he).name
      have hlocal : e.2.isLocal? = some true := heq ▸ isLocal
      refine ⟨p, hp, heq.symm.trans hid, hid ▸ hlocal, name, ?_, hid ▸ hname⟩
      exact (mem_forcedNames hnames name).2 ⟨e, he, hlocal, hname⟩ }

/-! ### A small build -/

variable {s : BuildSetup} {g : Graph} {files : FileTree} {units : List WrappedUnit}

/-- The record file of a unit is left under the index that stood in the spool directory. -/
theorem isLeftUnder_spooled [Whereabouts] {u : WrappedUnit} {build : Environment} {dir : Path}
    (built : build.IsOfBuild dir) {index back : PackagesIndex} (faithful : index.IsFaithful)
    (read : PackagesIndex.ofText index.toText = .ok back) (ready : u.IsSpooled dir back)
    (takes : FileTree.TakesFile dir Spool.indexName) (empty : files.Holds dir [])
    {f : String × String} (hf : u.spooled? = some f) :
    Spool.IsLeftUnder index.toText (FileTree.bytesOf f.2) := by
  obtain ⟨filled, -, holds⟩ := empty.write takes (by simp) (PackagesIndex.isShown_toText faithful)
  have listed : (Spool.indexName, index.toText) ∈ [(Spool.indexName, index.toText)] :=
    List.mem_singleton_self _
  obtain ⟨r, hr, rfl⟩ := Option.map_eq_some_iff.1 hf
  have told := Environment.get?_overlay_of_mem u.env built.distinct built.spool
  have fresh : u.recordName ∉ [(Spool.indexName, index.toText)].map (·.1) := by
    simpa using u.recordName_ne_indexName
  have spooled := (u.holds_run ready.announced built holds listed read ready.indexed ready.id
    ready.takes fresh).1
  have left : r ∈ (u.run build filled).spooled := by
    rw [spooled, hr]
    exact List.mem_singleton_self r
  have found := holds.isFile listed
  have text := holds.read listed
  refine ⟨filled, Environment.overlay u.env build, u.stem, u.args, u.compile, dir.text, r,
    WrapperContext.nonempty?_directory told, ?_, ?_, left, rfl⟩
  · rw [Path.ofText_text]
    exact found
  · rw [Path.ofText_text]
    exact text

theorem spoolsRecords_of_isReady [Whereabouts] (indexable : g.IsIndexable)
    (ready : s.IsReady g files units) (exe : Option String) : s.SpoolsRecords g exe := by
  intro wrapper index call result spool hindex called answer f hf isRecord
  obtain ⟨index', back, hindex', faithful, read, spooled⟩ := exists_index indexable ready
  cases hindex'.symm.trans hindex
  obtain ⟨call', result', called', answer', -⟩ :=
    exists_answer ready faithful read spooled wrapper exe
  cases called'.symm.trans called
  cases answer'.symm.trans answer
  obtain ⟨t, ht, rfl⟩ := List.mem_map.1 hf
  dsimp only at isRecord ⊢
  rcases List.mem_append.1 ht with ht | ht
  · obtain ⟨u, hu, ht⟩ := List.mem_filterMap.1 ht
    rw [List.mem_reverse] at hu
    exact isLeftUnder_spooled (s.isOfBuild_checkEnv wrapper exe) faithful read (spooled u hu)
      ready.index ready.spool ht
  · rw [List.mem_singleton.1 ht, Spool.isRecordName_indexName] at isRecord
    cases isRecord

/-- A build that is ready has an end, with the records that a recorder keeps of its units. -/
theorem exists_build [Whereabouts] (indexable : g.IsIndexable) (ready : s.IsReady g files units)
    (exe : Option String) : ∃ records,
      (s.build g (Recorder.fresh exe)).records.outcome.result = .ok records ∧
      records.Perm (units.filterMap fun u => u.compileUnit.kept?) := by
  obtain ⟨contents, spooled, perm⟩ := exists_spooledFiles indexable ready exe
  have faithful : ∀ r ∈ units.filterMap fun u => u.compileUnit.kept?, r.IsFaithful := by
    intro r hr
    obtain ⟨u, hu, hkept⟩ := List.mem_filterMap.1 hr
    exact (ready.announced u hu).isFaithful (indexable.ids _ (ready.packages u hu)) hkept
  obtain ⟨read, appended, same⟩ := exists_appendFiles (Recorder.fresh exe) perm faithful
  refine ⟨read, ?_, same⟩
  have told : (Recorder.fresh exe).cargoExe = exe := rfl
  unfold build
  simp only [told, spooled, appended]
  rfl

/-- A build of a local package that leaves two records of it. -/
theorem cleaned_build_app : ∃ names records, records.length = 2 ∧
    (appSetup.build appGraph (Recorder.fresh none)).records.outcome.result = .ok records ∧
    appSetup.Cleaned appGraph names (appSetup.build appGraph (Recorder.fresh none)).records.calls
      records := by
  obtain ⟨records, ended, perm⟩ := exists_build isIndexable_appGraph isReady_appSetup none
  obtain ⟨names, cleaned⟩ := cleaned_build isIndexable_appGraph.ids
    (spoolsRecords_of_isReady isIndexable_appGraph isReady_appSetup none) ended
  exact ⟨names, records, perm.length_eq.trans (by decide +kernel), ended, cleaned⟩

end BuildSetup

end UnusedDeps
