import UnusedDeps.Proofs.Recorder
import UnusedDeps.Proofs.Spool.Directory
import UnusedDeps.Proofs.Spool.Record
import UnusedDeps.Wrapper.Run

/-!
# What a run of the wrapper leaves behind

A wrapper that a build starts finds the package of its unit in the index, by the
directory that its variables name, and leaves in the spool directory what a
recorder keeps of that unit. Main statement: `holds_run`.
-/

namespace UnusedDeps

/-! ### The context -/

/-- Whether a text names a directory. -/
structure Path.IsNamedBy [Whereabouts] (directory : Path) (s : String) : Prop where
  sound : (Path.ofText s).fault? = none
  resolve : (Path.ofText s).resolve = directory.resolve

namespace WrapperContext

variable {files : FileTree} {env : Environment} {dir : Path} {held : List (String × String)}

theorem nonempty?_directory (told : Mapping.get? env Spool.directoryVariable = some dir.text) :
    env.nonempty? Spool.directoryVariable = some dir.text := by
  rw [Environment.nonempty?, told]
  simp [dir.text_ne_empty]

/-- A wrapper that is told of a spool directory knows the index in it. -/
theorem ofEnvironment_eq {index back : PackagesIndex} (holds : files.Holds dir held)
    (told : Mapping.get? env Spool.directoryVariable = some dir.text)
    (listed : (Spool.indexName, index.toText) ∈ held)
    (read : PackagesIndex.ofText index.toText = .ok back) :
    ofEnvironment files env =
      .ok (some ⟨dir, back, Mapping.get? env Spool.executableVariable⟩) := by
  have spooled := nonempty?_directory told
  have packages : PackagesIndex.read files (dir.child Spool.indexName) = .ok back := by
    have found := holds.isFile listed
    have text := holds.read listed
    rw [PackagesIndex.read, found, text]
    exact read
  rw [ofEnvironment, spooled]
  simp only [Path.ofText_text, packages]
  rfl

theorem package?_eq [Whereabouts] {c : WrapperContext} {directory : Path} {id : PackageId}
    {s : String} (indexed : Mapping.get? c.packages directory.resolve = some id)
    (told : Mapping.get? env "CARGO_MANIFEST_DIR" = some s) (named : directory.IsNamedBy s) :
    c.package? env = .ok (some id) := by
  have found : c.indexed? env = .ok (some id) := by
    rw [indexed?, told]
    simp only [named.sound, named.resolve, indexed]
  rw [package?, found]
  rfl

end WrapperContext

/-! ### Units -/

/-- A unit that a build compiles with the wrapper in place of the compiler. -/
structure WrappedUnit where
  package : PackageInfo
  args : List String
  /-- The variables of the wrapper's process beside those of the build. -/
  env : Environment
  /-- What the name of the record file starts with. -/
  stem : String
  /-- What the compiler answers. -/
  compile : FileTree → Wrapper.CompilerCall → Logged ToolResult

namespace WrappedUnit

def arguments (u : WrappedUnit) : List Value := u.args.map .text

def recordName (u : WrappedUnit) : String := u.stem ++ Spool.recordEnd

/-- Whether the wrapper takes the unit for a build script. -/
def isBuildScript (u : WrappedUnit) : Bool :=
  ((Wrapper.crateName? u.arguments).bind fun name => (Wrapper.isBuildScript name).toOption).getD
    false

/-- The unit as it is announced to a recorder. -/
def compileUnit (u : WrappedUnit) : CompileUnit where
  package := u.package.id
  args := u.arguments
  customBuild := .bool u.isBuildScript
  isLocal := .bool (u.package.id.isLocal? = some true)

/-- The file that is left in the spool directory, with its text. -/
def spooled? (u : WrappedUnit) : Option (String × String) :=
  u.compileUnit.kept?.map fun r => (u.recordName, Spool.recordText r)

/-- The run of the wrapper for the unit with the variables of a build. -/
def run [Whereabouts] (u : WrappedUnit) (build : Environment) (files : FileTree) : Wrapper.Run :=
  Wrapper.run files (Environment.overlay u.env build) u.stem u.arguments u.compile

/-- Whether a unit has a crate name that the wrapper sees, arguments that give a record of faithful
texts, and variables that name the directory of its package. -/
structure IsAnnounced [Whereabouts] (u : WrappedUnit) : Prop where
  named : ∃ name, Wrapper.crateName? u.arguments = some (.text name) ∧ name ≠ Wrapper.probeName
  parsed : u.compileUnit.IsParsed
  faithful : ∀ r, u.compileUnit.kept? = some r → r.HasFaithfulTexts
  directory : ∃ s, Mapping.get? u.env "CARGO_MANIFEST_DIR" = some s ∧
    u.package.manifestPath.parent.IsNamedBy s

theorem IsAnnounced.isFaithful [Whereabouts] {u : WrappedUnit} (h : u.IsAnnounced)
    (id : u.package.id.IsFaithful) {r : InvocationRecord} (hr : u.compileUnit.kept? = some r) :
    r.IsFaithful := by
  obtain ⟨record, hrecord⟩ := h.parsed
  cases CompileUnit.eq_of_kept? hrecord hr
  have texts : ∀ v ∈ u.arguments, v.IsText := fun v hv => by
    obtain ⟨s, -, rfl⟩ := List.mem_map.1 hv
    exact ⟨s, rfl⟩
  obtain ⟨package, customBuild, name, type⟩ := InvocationRecord.isText_of_ofArguments texts hrecord
  exact { h.faithful _ hr with
    package := package ▸ id
    customBuild := ⟨_, customBuild⟩
    name := name
    type := type }

end WrappedUnit

namespace Wrapper

theorem unit?_eq [Whereabouts] {c : WrapperContext} {env : Environment} {u : WrappedUnit}
    {name : String} (found : c.package? env = .ok (some u.package.id))
    (named : crateName? u.arguments = some (.text name)) (other : name ≠ probeName)
    (placed : ∃ b, u.package.id.isLocal? = some b) :
    unit? (some c) u.arguments env = .ok (some (c, u.compileUnit)) := by
  obtain ⟨b, hb⟩ := placed
  have script : u.isBuildScript = buildScriptStart.toList.isPrefixOf name.toList := by
    rw [WrappedUnit.isBuildScript, named]
    rfl
  have place : decide (u.package.id.isLocal? = some true) = b := by
    rw [hb]
    cases b <;> rfl
  have probe : Value.text name ≠ .text probeName := by simpa using other
  have filtered : (crateName? u.arguments).filter (· ≠ .null) = some (.text name) := by
    rw [named]
    rfl
  rw [WrappedUnit.compileUnit, script, place]
  simp only [unit?, found, filtered, bind, Except.bind, orWrongType, Value.key?, probe, if_false,
    isBuildScript, CompileUnit.ofPackage, hb]
  rfl

/-- The plan for a unit whose arguments give a record: the record that is kept of the unit, and the
call with what the recorder decides. -/
theorem result_plan [Whereabouts] {context : Option WrapperContext} {c : WrapperContext}
    {args : List Value}
    {env : Environment} {u : CompileUnit} (h : unit? context args env = .ok (some (c, u)))
    (parsed : u.IsParsed) :
    (plan context args env).result =
      let decision := (Recorder.fresh c.cargoExe).decision u.isLocal.isTruthy
      .ok ⟨u.kept?.toList, ⟨decision.apply args, decision.env⟩⟩ := by
  have observed := Recorder.result_observe (Recorder.fresh c.cargoExe) parsed
  have drained : ((Recorder.fresh c.cargoExe).appendAll u.kept?.toList).drain.1 =
      u.kept?.toList := List.nil_append _
  unfold plan
  rw [Logged.result_bind_eq_ok]
  refine ⟨_, h, ?_⟩
  rw [Logged.result_bind_eq_ok]
  refine ⟨_, observed, ?_⟩
  rw [Logged.result_pure, drained]

theorem exists_plan [Whereabouts] {c : WrapperContext} {args : List Value} {env : Environment}
    {u : CompileUnit} (h : unit? (some c) args env = .ok (some (c, u))) (parsed : u.IsParsed) :
    ∃ p, (plan (some c) args env).result = .ok p ∧ p.records = u.kept?.toList :=
  ⟨_, result_plan h parsed, rfl⟩

variable {files : FileTree} {dir : Path} {held : List (String × String)}

theorem exists_spool (holds : files.Holds dir held) {stem : String} {r : InvocationRecord}
    (takes : FileTree.TakesFile dir (stem ++ Spool.recordEnd))
    (fresh : stem ++ Spool.recordEnd ∉ held.map (·.1)) (faithful : r.IsFaithful) :
    ∃ after, spool files dir stem r = .ok after ∧
      after.Holds dir ((stem ++ Spool.recordEnd, Spool.recordText r) :: held) := by
  obtain ⟨after, written, holds⟩ := holds.write takes fresh (Spool.isShown_recordText faithful)
  refine ⟨after, ?_, holds⟩
  unfold spool
  dsimp only
  rw [takes.sound, Spool.recordBytes, written]

theorem exists_spoolAll {c : WrapperContext} (holds : files.Holds c.spoolDirectory held)
    {u : WrappedUnit} (faithful : ∀ r, u.compileUnit.kept? = some r → r.IsFaithful)
    (takes : FileTree.TakesFile c.spoolDirectory u.recordName)
    (fresh : u.recordName ∉ held.map (·.1)) {p : Plan}
    (records : p.records = u.compileUnit.kept?.toList) :
    ∃ after, spoolAll files (some c) u.stem p = .ok after ∧
      after.Holds c.spoolDirectory (u.spooled?.toList ++ held) := by
  rw [WrappedUnit.spooled?, spoolAll, records]
  cases hr : u.compileUnit.kept? with
  | none => exact ⟨files, rfl, holds⟩
  | some r =>
    obtain ⟨after, spooled, holds⟩ := exists_spool holds takes fresh (faithful r hr)
    refine ⟨after, ?_, holds⟩
    simp only [Option.toList_some, List.foldlM_cons, spooled, List.foldlM_nil]
    rfl

end Wrapper

/-- Whether the variables are those with which a build starts its wrappers. -/
structure Environment.IsOfBuild (build : Environment) (dir : Path) : Prop where
  distinct : (build.map (·.1)).Nodup
  spool : (Spool.directoryVariable, dir.text) ∈ build
  package : "CARGO_MANIFEST_DIR" ∉ build.map (·.1)

/-- A run of the wrapper leaves the record that a recorder keeps of the unit, and nothing else. -/
theorem WrappedUnit.holds_run [Whereabouts] {u : WrappedUnit} (announced : u.IsAnnounced)
    {build : Environment} {dir : Path} (built : build.IsOfBuild dir) {files : FileTree}
    {held : List (String × String)} (holds : files.Holds dir held) {index back : PackagesIndex}
    (listed : (Spool.indexName, index.toText) ∈ held)
    (read : PackagesIndex.ofText index.toText = .ok back)
    (indexed : Mapping.get? back u.package.manifestPath.parent.resolve = some u.package.id)
    (id : u.package.id.IsFaithful) (takes : FileTree.TakesFile dir u.recordName)
    (fresh : u.recordName ∉ held.map (·.1)) :
    (u.run build files).spooled = u.compileUnit.kept?.toList ∧
      (u.run build files).files.Holds dir (u.spooled?.toList ++ held) := by
  obtain ⟨name, hname, other⟩ := announced.named
  obtain ⟨s, hs, named⟩ := announced.directory
  have told := Environment.get?_overlay_of_mem u.env built.distinct built.spool
  have manifest := (Environment.get?_overlay_of_notMem u.env built.package).trans hs
  have context := WrapperContext.ofEnvironment_eq holds told listed read
  have found := WrapperContext.package?_eq
    (c := ⟨dir, back, Mapping.get? (Environment.overlay u.env build) Spool.executableVariable⟩)
    indexed manifest named
  have unit := Wrapper.unit?_eq found hname other id.isLocal?
  obtain ⟨p, planned, records⟩ := Wrapper.exists_plan unit announced.parsed
  obtain ⟨after, spooled, holds⟩ := Wrapper.exists_spoolAll
    (c := ⟨dir, back, Mapping.get? (Environment.overlay u.env build) Spool.executableVariable⟩)
    holds (fun r hr => announced.isFaithful id hr) takes fresh records
  rw [run, Wrapper.run, context]
  simp only [planned, spooled]
  exact ⟨records, holds⟩

end UnusedDeps
