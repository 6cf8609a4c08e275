import Mathlib.Data.List.Perm.Basic
import UnusedDeps.Proofs.Cargo.Index
import UnusedDeps.Proofs.Wrapper

/-!
# Builds and replayed invocations

A build starts the wrapper for each unit and reads the records back that the
wrappers left in the spool directory. The same units, replayed on a recorder of
their own, leave the same records, though maybe in another order. Main statements:
`holds_runAll`, `exists_appendFiles` and `perm_build_replay`.
-/

namespace UnusedDeps

/-! ### Starting the wrapper -/

/-- The tree after files with the given names and texts are written to a directory. -/
def FileTree.writeAll (t : FileTree) (dir : Path) (spool : List (String × String)) :
    Except FileFault FileTree :=
  spool.foldlM (fun t f => t.write (dir.child f.1) (bytesOf f.2)) t

/-- The tree after the wrapper was run for each unit in turn, with the variables of a build. -/
def WrappedUnit.runAll [Whereabouts] (build : Environment) (files : FileTree)
    (units : List WrappedUnit) : FileTree :=
  units.foldl (fun files u => (u.run build files).files) files

/-- Whether a toolchain runs the wrapper for the given units when it is told to build, in a tree
whose spool directory has the files of the command, and does nothing to that directory when it is
told to clean. Both succeed. -/
structure Toolchain.StartsWrappers [Whereabouts] (t : Toolchain) (files : FileTree)
    (units : List WrappedUnit) : Prop where
  cleans : ∀ call, call.spool = [] → ∃ result, t.answer call = .ended result [] ∧ result.code = 0
  builds : ∀ call filled, call.spool ≠ [] →
    files.writeAll t.spoolDirectory call.spool = .ok filled →
    ∃ result, t.answer call = .ended result
      ((WrappedUnit.runAll call.env filled units).filesIn t.spoolDirectory) ∧ result.code = 0

section Runs

variable {build : Environment} {dir : Path} {index back : PackagesIndex}

/-- What has to be known of a unit so that the wrapper leaves its record. -/
structure WrappedUnit.IsSpooled [Whereabouts] (u : WrappedUnit) (dir : Path)
    (back : PackagesIndex) : Prop where
  announced : u.IsAnnounced
  indexed : Mapping.get? back u.package.manifestPath.parent.resolve = some u.package.id
  id : u.package.id.IsFaithful
  takes : FileTree.TakesFile dir u.recordName

theorem WrappedUnit.mem_spooled? {u : WrappedUnit} {name : String}
    (h : name ∈ u.spooled?.toList.map (·.1)) : name = u.recordName := by
  obtain ⟨f, hf, rfl⟩ := List.mem_map.1 h
  obtain ⟨r, -, rfl⟩ := Option.map_eq_some_iff.1 (Option.mem_toList.1 hf)
  rfl

theorem WrappedUnit.map_snd_filterMap_spooled? (units : List WrappedUnit) :
    (SpoolFiles.ofTexts (units.filterMap spooled?)).map (·.2) =
      (units.filterMap fun u => u.compileUnit.kept?).map Spool.recordBytes := by
  rw [SpoolFiles.ofTexts, List.map_map, List.map_filterMap, List.map_filterMap]
  refine List.filterMap_congr fun u _ => ?_
  rw [spooled?, Option.map_map]
  simp only [Function.comp_def]
  rfl

/-- The wrappers of several units leave the records of the local ones. -/
theorem WrappedUnit.holds_runAll [Whereabouts] (built : build.IsOfBuild dir)
    (read : PackagesIndex.ofText index.toText = .ok back) {units : List WrappedUnit}
    (ready : ∀ u ∈ units, u.IsSpooled dir back) (distinct : (units.map recordName).Nodup)
    {files : FileTree} {held : List (String × String)} (holds : files.Holds dir held)
    (listed : (Spool.indexName, index.toText) ∈ held)
    (fresh : ∀ u ∈ units, u.recordName ∉ held.map (·.1)) :
    (runAll build files units).Holds dir (units.reverse.filterMap spooled? ++ held) := by
  induction units generalizing files held with
  | nil => exact holds
  | cons u units ih =>
    rw [List.forall_mem_cons] at ready fresh
    rw [List.map_cons, List.nodup_cons] at distinct
    obtain ⟨announced, indexed, id, takes⟩ := ready.1
    -- The first wrapper adds at most one file; no later unit has its name for a record.
    have after := (u.holds_run announced built holds listed read indexed id takes fresh.1).2
    have fresh' : ∀ v ∈ units, v.recordName ∉ (u.spooled?.toList ++ held).map (·.1) := by
      intro v hv hmem
      rw [List.map_append, List.mem_append] at hmem
      rcases hmem with hmem | hmem
      · exact distinct.1 (mem_spooled? hmem ▸ List.mem_map_of_mem hv)
      · exact fresh.2 v hv hmem
    have rest := ih ready.2 distinct.2 after (List.mem_append_right _ listed) fresh'
    rw [List.reverse_cons, List.filterMap_append, List.append_assoc]
    have single : [u].filterMap spooled? = u.spooled?.toList := by
      cases hu : u.spooled? <;> simp [hu]
    rw [single]
    exact rest

end Runs

/-! ### Reading the records back -/

theorem Spool.isRecordName_append (stem : String) : isRecordName (stem ++ recordEnd) = true := by
  rw [isRecordName, List.isSuffixOf_iff_suffix, String.toList_append]
  exact List.suffix_append _ _

theorem Spool.isRecordName_indexName : isRecordName indexName = false := by decide

theorem WrappedUnit.recordName_ne_indexName (u : WrappedUnit) : u.recordName ≠ Spool.indexName := by
  intro named
  have record := Spool.isRecordName_append u.stem
  rw [← recordName, named, Spool.isRecordName_indexName] at record
  cases record

namespace Driven

theorem result_bind_eq_ok {α β : Type} {x : Driven α} {f : α → Driven β} {b : β} :
    (x >>= f).outcome.result = .ok b ↔
      ∃ a, x.outcome.result = .ok a ∧ (f a).outcome.result = .ok b := by
  rw [result_bind, bind_eq_ok]

theorem result_command {t : Toolchain} {call : CargoCall} {result : ToolResult}
    {spool : SpoolFiles} (h : t.answer call = .ended result spool) :
    (command t call).outcome.result = .ok (result, spool) := by
  rw [command, h]
  rfl

theorem mem_calls_bind {α β : Type} {x : Driven α} {f : α → Driven β} {call : CargoCall} :
    call ∈ (x >>= f).calls ↔
      call ∈ x.calls ∨ ∃ a, x.outcome.result = .ok a ∧ call ∈ (f a).calls := by
  rw [calls_bind, List.mem_append]
  cases x.outcome.result <;> simp

theorem calls_command (t : Toolchain) (call : CargoCall) : (command t call).calls = [call] := by
  unfold command
  split <;> rfl

end Driven

namespace BuildSetup

/-- The contents of the record files, whatever their order and whatever else is there. -/
theorem perm_recordFiles {spool records others : SpoolFiles}
    (perm : spool.Perm (records ++ others)) (named : ∀ f ∈ records, Spool.isRecordName f.1 = true)
    (unnamed : ∀ f ∈ others, Spool.isRecordName f.1 = false) :
    (recordFiles spool).Perm (records.map (·.2)) := by
  have kept : records.filter (fun f => Spool.isRecordName f.1) = records :=
    List.filter_eq_self.2 named
  have dropped : others.filter (fun f => Spool.isRecordName f.1) = [] :=
    List.filter_eq_nil_iff.2 fun f hf => by simp [unnamed f hf]
  have filtered := perm.filter fun f => Spool.isRecordName f.1
  rw [List.filter_append, kept, dropped, List.append_nil] at filtered
  exact ((List.mergeSort_perm _ _).trans filtered).map _

theorem appendFiles_eq {r : Recorder} {files : List ByteArray} {records : List InvocationRecord}
    (h : List.Forall₂ (fun bytes record => Spool.readRecord bytes = .ok record) files records) :
    appendFiles r files = (r.appendAll records, .ok ()) := by
  induction h generalizing r with
  | nil => rw [appendFiles, Recorder.appendAll_nil]
  | @cons bytes record files records hr _ ih =>
    have step : r.append record = r.appendAll [record] := rfl
    rw [appendFiles, hr]
    simp only [ih, step, Recorder.appendAll_append, List.singleton_append]

/-- Records come back from files that are theirs, in the order of the files. -/
theorem exists_appendFiles (r : Recorder) {files : List ByteArray}
    {records : List InvocationRecord} (perm : files.Perm (records.map Spool.recordBytes))
    (h : ∀ record ∈ records, record.IsFaithful) :
    ∃ read, appendFiles r files = (r.appendAll read, .ok ()) ∧ read.Perm records := by
  have each : List.Forall₂ (fun bytes record => Spool.readRecord bytes = .ok record)
      (records.map Spool.recordBytes) records := by
    rw [List.forall₂_map_left_iff, List.forall₂_same]
    exact fun record hr => Spool.readRecord_recordBytes (h record hr)
  obtain ⟨read, hread, hperm⟩ := List.perm_comp_forall₂ perm each
  exact ⟨read, appendFiles_eq hread, hperm⟩

/-! ### The build -/

theorem names_checkEnv (s : BuildSetup) (wrapper : String) (exe : Option String) :
    (s.checkEnv wrapper exe).map (·.1) =
      ["RUSTC_WRAPPER", Spool.directoryVariable, "RUSTC_BOOTSTRAP"] ++
        if exe.isSome then [Spool.executableVariable] else [] := by
  cases exe <;> rfl

theorem isOfBuild_checkEnv (s : BuildSetup) (wrapper : String) (exe : Option String) :
    (s.checkEnv wrapper exe).IsOfBuild s.toolchain.spoolDirectory where
  distinct := by
    rw [names_checkEnv]
    cases exe.isSome <;> decide
  spool := by simp [checkEnv]
  package := by
    rw [names_checkEnv]
    cases exe.isSome <;> decide

variable {s : BuildSetup} {files : FileTree} {units : List WrappedUnit}

theorem result_forceRebuild [Whereabouts] (starts : s.toolchain.StartsWrappers files units)
    (names : List String) : (s.forceRebuild names).outcome.result = .ok () := by
  obtain ⟨result, hanswer, hcode⟩ := starts.cleans ⟨s.options.cleanArgs names, [], []⟩ rfl
  have cleaned : (s.succeed .cleaning (s.options.cleanArgs names)).outcome.result = .ok result := by
    rw [succeed, Driven.result_bind_eq_ok]
    refine ⟨_, Driven.result_command hanswer, ?_⟩
    simp only [hcode, if_true]
    rfl
  unfold forceRebuild
  split
  · rfl
  · rw [Driven.result_bind_eq_ok]
    exact ⟨(), rfl, Driven.result_bind_eq_ok.2 ⟨result, cleaned, rfl⟩⟩

theorem result_check {wrapper : String} {exe : Option String} {index : PackagesIndex}
    {call : CargoCall} (called : s.checkCall wrapper exe index = .ok call) {result : ToolResult}
    {spool : SpoolFiles} (answer : s.toolchain.answer call = .ended result spool)
    (ended : result.code = 0) :
    (s.check wrapper exe index).outcome.result = .ok (recordFiles spool) := by
  unfold check
  rw [Driven.result_bind_eq_ok]
  refine ⟨call, called, ?_⟩
  rw [Driven.result_bind_eq_ok]
  refine ⟨_, Driven.result_command answer, ?_⟩
  simp only [ended, if_true]
  split
  · rw [Driven.result_bind_eq_ok]
    exact ⟨(), rfl, rfl⟩
  · rfl

/-- Whether a build of a graph runs to its end in a tree, with the given units compiled on its way:
the wrapper is found, the options can be written, the spool directory is there, empty and fit for
the files that will stand in it, and the units are units of packages of the graph. -/
structure IsReady [Whereabouts] (s : BuildSetup) (g : Graph) (files : FileTree)
    (units : List WrappedUnit) : Prop where
  wrapper : ∃ wrapper, s.wrapperPath? = some wrapper
  options : ∃ args, s.options.checkArgs = .ok args
  toolchain : s.toolchain.StartsWrappers files units
  spool : files.Holds s.toolchain.spoolDirectory []
  index : FileTree.TakesFile s.toolchain.spoolDirectory Spool.indexName
  records : ∀ u ∈ units, FileTree.TakesFile s.toolchain.spoolDirectory u.recordName
  distinct : (units.map WrappedUnit.recordName).Nodup
  packages : ∀ u ∈ units, u.package ∈ g.packages
  announced : ∀ u ∈ units, u.IsAnnounced

variable {g : Graph}

/-- The files that are left when the wrappers of a build have run are its index and the records. -/
theorem exists_filesIn [Whereabouts] (ready : s.IsReady g files units) {build : Environment}
    (built : build.IsOfBuild s.toolchain.spoolDirectory) {index back : PackagesIndex}
    (faithful : index.IsFaithful) (read : PackagesIndex.ofText index.toText = .ok back)
    (spooled : ∀ u ∈ units, u.IsSpooled s.toolchain.spoolDirectory back) :
    ∃ filled,
      files.writeAll s.toolchain.spoolDirectory [(Spool.indexName, index.toText)] = .ok filled ∧
      (WrappedUnit.runAll build filled units).filesIn s.toolchain.spoolDirectory =
        SpoolFiles.ofTexts
          (units.reverse.filterMap WrappedUnit.spooled? ++ [(Spool.indexName, index.toText)]) := by
  obtain ⟨filled, written, holds⟩ := ready.spool.write ready.index (by simp)
    (PackagesIndex.isShown_toText faithful)
  have fresh : ∀ u ∈ units, u.recordName ∉ [(Spool.indexName, index.toText)].map (·.1) :=
    fun u _ => by simpa using u.recordName_ne_indexName
  refine ⟨filled, ?_, ?_⟩
  · rw [FileTree.writeAll, List.foldlM_cons, written]
    rfl
  · exact (WrappedUnit.holds_runAll built read spooled ready.distinct holds
      (List.mem_singleton_self _) fresh).filesIn

theorem perm_recordFiles_spooled (units : List WrappedUnit) (text : String) :
    (recordFiles (SpoolFiles.ofTexts
      (units.reverse.filterMap WrappedUnit.spooled? ++ [(Spool.indexName, text)]))).Perm
      ((units.filterMap fun u => u.compileUnit.kept?).map Spool.recordBytes) := by
  have named : ∀ f ∈ SpoolFiles.ofTexts (units.reverse.filterMap WrappedUnit.spooled?),
      Spool.isRecordName f.1 = true := by
    intro f hf
    obtain ⟨t, ht, rfl⟩ := List.mem_map.1 hf
    obtain ⟨u, -, hu⟩ := List.mem_filterMap.1 ht
    obtain ⟨r, -, rfl⟩ := Option.map_eq_some_iff.1 hu
    exact Spool.isRecordName_append u.stem
  have unnamed : ∀ f ∈ SpoolFiles.ofTexts [(Spool.indexName, text)],
      Spool.isRecordName f.1 = false := by
    intro f hf
    rw [List.mem_singleton.1 hf]
    exact Spool.isRecordName_indexName
  rw [← WrappedUnit.map_snd_filterMap_spooled?, SpoolFiles.ofTexts, List.map_append]
  refine (perm_recordFiles (List.Perm.refl _) named unnamed).trans ?_
  exact ((units.reverse_perm.filterMap _).map _).map _

/-- The index of a graph comes back with what the units of a build that is ready look up in it. -/
theorem exists_index [Whereabouts] (indexable : g.IsIndexable) (ready : s.IsReady g files units) :
    ∃ index back, PackagesIndex.ofGraph g = .ok index ∧ index.IsFaithful ∧
      PackagesIndex.ofText index.toText = .ok back ∧
      ∀ u ∈ units, u.IsSpooled s.toolchain.spoolDirectory back := by
  obtain ⟨index, hindex, perm⟩ := PackagesIndex.exists_ofGraph indexable
  have faithful := PackagesIndex.isFaithful_of_perm indexable perm
  obtain ⟨back, read, indexed⟩ := PackagesIndex.exists_ofText_toText faithful
    (PackagesIndex.nodup_of_perm indexable perm)
  refine ⟨index, back, hindex, faithful, read, fun u hu => ?_⟩
  exact
  { announced := ready.announced u hu
    indexed := indexed _ (perm.mem_iff.2 (List.mem_map_of_mem (ready.packages u hu)))
    id := indexable.ids _ (ready.packages u hu)
    takes := ready.records u hu }

/-- The answer to the build command has the files of the records that a recorder keeps of the
units. -/
theorem exists_answer [Whereabouts] (ready : s.IsReady g files units) {index back : PackagesIndex}
    (faithful : index.IsFaithful) (read : PackagesIndex.ofText index.toText = .ok back)
    (spooled : ∀ u ∈ units, u.IsSpooled s.toolchain.spoolDirectory back) (wrapper : String)
    (exe : Option String) :
    ∃ call result, s.checkCall wrapper exe index = .ok call ∧
      s.toolchain.answer call = .ended result (SpoolFiles.ofTexts
        (units.reverse.filterMap WrappedUnit.spooled? ++ [(Spool.indexName, index.toText)])) ∧
      result.code = 0 := by
  obtain ⟨args, hargs⟩ := ready.options
  have called : s.checkCall wrapper exe index =
      .ok ⟨args, s.checkEnv wrapper exe, [(Spool.indexName, index.toText)]⟩ := by
    rw [checkCall, hargs]
    rfl
  obtain ⟨filled, filling, left⟩ := exists_filesIn ready (s.isOfBuild_checkEnv wrapper exe) faithful
    read spooled
  obtain ⟨result, answer, ended⟩ := ready.toolchain.builds
    ⟨args, s.checkEnv wrapper exe, [(Spool.indexName, index.toText)]⟩ filled (by simp) filling
  exact ⟨_, result, called, left ▸ answer, ended⟩

/-- The files that a build reads are those of the records that a recorder keeps of the units. -/
theorem exists_spooledFiles [Whereabouts] (indexable : g.IsIndexable)
    (ready : s.IsReady g files units)
    (exe : Option String) : ∃ spooled, (s.spooledFiles g exe).outcome.result = .ok spooled ∧
      spooled.Perm ((units.filterMap fun u => u.compileUnit.kept?).map Spool.recordBytes) := by
  obtain ⟨wrapper, hwrapper⟩ := ready.wrapper
  obtain ⟨index, back, hindex, faithful, read, spooled⟩ := exists_index indexable ready
  obtain ⟨names, hnames⟩ := exists_forcedNames faithful
  obtain ⟨call, result, called, answer, ended⟩ :=
    exists_answer ready faithful read spooled wrapper exe
  refine ⟨_, ?_, perm_recordFiles_spooled units index.toText⟩
  rw [spooledFiles, hwrapper]
  dsimp only
  refine Driven.result_bind_eq_ok.2 ⟨index, hindex, Driven.result_bind_eq_ok.2 ⟨names, hnames, ?_⟩⟩
  refine Driven.result_bind_eq_ok.2 ⟨(), result_forceRebuild ready.toolchain names, ?_⟩
  exact result_check called answer ended

/-- The records that a build reads back are those that a replay of the same units leaves, in some
order. -/
theorem perm_build_replay [Whereabouts] (indexable : g.IsIndexable)
    (ready : s.IsReady g files units)
    (exe exe' : Option String) {jobs : Value} (workers : isTooFew jobs = .ok false) :
    ∃ built replayed,
      (s.build g (Recorder.fresh exe)).records.outcome.result = .ok built ∧
      ((Recorder.fresh exe').replay (units.map WrappedUnit.compileUnit) jobs).result.map (·.1) =
        .ok replayed ∧
      built.Perm replayed := by
  obtain ⟨left, spooled, perm⟩ := exists_spooledFiles indexable ready exe
  have faithful : ∀ r ∈ units.filterMap fun u => u.compileUnit.kept?, r.IsFaithful := by
    intro r hr
    obtain ⟨u, hu, hkept⟩ := List.mem_filterMap.1 hr
    exact (ready.announced u hu).isFaithful (indexable.ids _ (ready.packages u hu)) hkept
  obtain ⟨read, appended, same⟩ := exists_appendFiles (Recorder.fresh exe) perm faithful
  have parsed : ∀ u ∈ units.map WrappedUnit.compileUnit, u.IsParsed := by
    intro u hu
    obtain ⟨v, hv, rfl⟩ := List.mem_map.1 hu
    exact (ready.announced v hv).parsed
  have replay := Recorder.result_replay (Recorder.fresh exe') parsed workers
  refine ⟨read, (units.map WrappedUnit.compileUnit).filterMap CompileUnit.kept?, ?_, ?_, ?_⟩
  · have told : (Recorder.fresh exe).cargoExe = exe := rfl
    unfold build
    simp only [told, spooled, appended]
    rfl
  · rw [replay]
    exact congrArg Except.ok (List.nil_append _)
  · rw [List.filterMap_map]
    exact same

end BuildSetup

/-! ### A small build -/

/-- The toolchain that runs the wrapper for the given units whenever it is told to build, and
succeeds in everything. -/
def Toolchain.running [Whereabouts] (dir : Path) (files : FileTree)
    (units : List WrappedUnit) : Toolchain where
  executable := .ok "cargo"
  answer := fun call =>
    let left := match call.spool, files.writeAll dir call.spool with
      | _ :: _, .ok filled => (WrappedUnit.runAll call.env filled units).filesIn dir
      | _, _ => []
    .ended ⟨"cargo", call.args, 0, "", ""⟩ left
  spoolDirectory := dir

theorem Toolchain.startsWrappers_running [Whereabouts] (dir : Path) (files : FileTree)
    (units : List WrappedUnit) : (running dir files units).StartsWrappers files units where
  cleans := fun call hspool => by
    refine ⟨⟨"cargo", call.args, 0, "", ""⟩, ?_, rfl⟩
    simp only [running, hspool]
  builds := fun call filled some filling => by
    refine ⟨⟨"cargo", call.args, 0, "", ""⟩, ?_, rfl⟩
    obtain ⟨f, rest, hspool⟩ := List.exists_cons_of_ne_nil some
    simp only [running] at filling ⊢
    rw [filling, hspool]

/-- A package in a directory of its own below the root. -/
def directPackage (name source : String) (directory : Path) : PackageInfo :=
  ⟨⟨.text name, .text "0.1.0", .text source⟩, directory.child "Cargo.toml", none, .empty⟩

/-- A unit of such a package. -/
def directUnit (package : PackageInfo) (directory crateName stem : String) : WrappedUnit where
  package := package
  args := ["--crate-name", crateName, "--out-dir", "/target", "-C", "extra-filename=-1"]
  env := [("CARGO_MANIFEST_DIR", directory)]
  stem := stem
  compile := fun _ _ => .answer ⟨"rustc", [], 0, "", ""⟩

/-- The record that the arguments of such a unit give. -/
def directRecord (package : PackageId) (customBuild : Value) (crateName : String) :
    InvocationRecord where
  package := package
  customBuild := customBuild
  crateName := .text crateName
  crateType := .text "bin"
  extraFilename := "-1"
  capLintsAllow := false
  outDir := Path.ofText "/target"
  externs := []

theorem ofArguments_directUnit (package : PackageInfo) (directory crateName stem : String)
    (id : PackageId) (customBuild : Value) :
    InvocationRecord.ofArguments id (directUnit package directory crateName stem).arguments
      customBuild = .ok (directRecord id customBuild crateName) := rfl

theorem hasFaithfulTexts_directRecord (id : PackageId) (customBuild : Value) {crateName : String}
    (shown : Text.IsShown crateName) :
    (directRecord id customBuild crateName).HasFaithfulTexts where
  crateName := fun s hs => by
    cases hs
    exact shown.isFaithful
  crateType := fun s hs => by
    cases hs
    exact Text.IsShown.isFaithful (by decide)
  extraFilename := Text.IsShown.isFaithful (s := "-1") (by decide)
  outDir := Text.IsShown.isFaithful (s := (Path.ofText "/target").text) (by decide +kernel)
  externs := List.forall_mem_nil _

theorem isAnnounced_directUnit [Whereabouts] {package : PackageInfo} {directory crateName : String}
    (other : crateName ≠ Wrapper.probeName) (shown : Text.IsShown crateName)
    (named : package.manifestPath.parent.IsNamedBy directory) (stem : String) :
    (directUnit package directory crateName stem).IsAnnounced where
  named := ⟨crateName, rfl, other⟩
  parsed := ⟨_, ofArguments_directUnit package directory crateName stem _ _⟩
  faithful := fun r hr => by
    have parsed := ofArguments_directUnit package directory crateName stem package.id
      (.bool (directUnit package directory crateName stem).isBuildScript)
    cases CompileUnit.eq_of_kept? parsed hr
    exact hasFaithfulTexts_directRecord _ _ shown
  directory := ⟨directory, rfl, named⟩

namespace BuildSetup

/-- A member with a build script, and a package from a registry. -/
def appPackage : PackageInfo := directPackage "app" "path+file:///app" (Path.ofText "/app")

def logPackage : PackageInfo := directPackage "log" "registry" (Path.ofText "/log")

def appUnits : List WrappedUnit :=
  [directUnit appPackage "/app" "build_script_build" "1", directUnit logPackage "/log" "log" "2",
    directUnit appPackage "/app" "app" "3"]

/-- A tree with nothing but an empty spool directory. -/
def spoolTree : FileTree := ⟨[(⟨true, ["spool"]⟩, .directory)]⟩

def appSetup : BuildSetup where
  options := {}
  toolchain := .running (Path.ofText "/spool") spoolTree appUnits
  env := []
  files := .empty
  wrapper := some "wrapper"

def appGraph : Graph := ⟨[appPackage, logPackage], [], [appPackage.id]⟩

theorem isIndexable_appGraph : appGraph.IsIndexable where
  ids := by
    have text (s : String) (h : Text.IsShown s) : (Value.text s).IsFaithfulText :=
      ⟨s, rfl, h.isFaithful⟩
    simp only [appGraph, List.forall_mem_cons]
    exact ⟨⟨text _ (by decide), text _ (by decide), text _ (by decide)⟩,
      ⟨text _ (by decide), text _ (by decide), text _ (by decide)⟩, List.forall_mem_nil _⟩
  sound := by decide +kernel
  texts := by
    simp only [appGraph, List.forall_mem_cons]
    exact ⟨Text.IsShown.isFaithful (by decide +kernel), Text.IsShown.isFaithful (by decide +kernel),
      List.forall_mem_nil _⟩
  distinct := by decide +kernel

theorem isReady_appSetup : appSetup.IsReady appGraph spoolTree appUnits where
  wrapper := ⟨"wrapper", rfl⟩
  options := ⟨_, rfl⟩
  toolchain := Toolchain.startsWrappers_running _ _ _
  spool :=
    { directory := rfl
      names := by decide +kernel
      files := List.forall_mem_nil _
      sound := List.forall_mem_nil _
      shown := List.forall_mem_nil _ }
  index := FileTree.takesFile_of_isShown (by decide) (by decide) (by decide) (by decide)
    (by decide +kernel) (by decide +kernel)
  records := by
    simp only [appUnits, List.forall_mem_cons]
    refine ⟨?_, ?_, ?_, List.forall_mem_nil _⟩ <;>
      exact FileTree.takesFile_of_isShown (by decide) (by decide) (by decide) (by decide)
        (by decide +kernel) (by decide +kernel)
  distinct := by decide +kernel
  packages := by
    simp [appUnits, directUnit, appGraph]
  announced := by
    have app : appPackage.manifestPath.parent.IsNamedBy "/app" :=
      ⟨by decide +kernel, by decide +kernel⟩
    have log : logPackage.manifestPath.parent.IsNamedBy "/log" :=
      ⟨by decide +kernel, by decide +kernel⟩
    simp only [appUnits, List.forall_mem_cons]
    exact ⟨isAnnounced_directUnit (by decide) (by decide) app "1",
      isAnnounced_directUnit (by decide) (by decide) log "2",
      isAnnounced_directUnit (by decide) (by decide) app "3", List.forall_mem_nil _⟩

/-- A build of three units of which one is not local. -/
theorem perm_build_replay_app : ∃ built replayed,
    (appSetup.build appGraph (Recorder.fresh none)).records.outcome.result = .ok built ∧
    ((Recorder.fresh none).replay (appUnits.map WrappedUnit.compileUnit) .null).result.map (·.1) =
      .ok replayed ∧
    built.Perm replayed :=
  perm_build_replay isIndexable_appGraph isReady_appSetup none none rfl

end BuildSetup

end UnusedDeps
