import UnusedDeps.Proofs.Recorder
import UnusedDeps.Proofs.Spool.Identity
import UnusedDeps.Wrapper.Run

/-!
# Where record files come from

A wrapper leaves a record only for a unit of a local package, and it takes a
package for local only when the package stands in the index: the identity that a
unit's own variables give is never local. Whatever its environment and arguments,
a wrapper that finds an index in its spool directory therefore leaves records of
local packages of that index. Main statement: `of_isLeftUnder`.
-/

namespace UnusedDeps

namespace WrapperContext

variable {c : WrapperContext} {env : Environment} {package : PackageId}

theorem isLocal?_of_named? (h : named? env = some package) : package.isLocal? = some false := by
  obtain ⟨name, -, rfl⟩ := Option.map_eq_some_iff.1 h
  show some (PackageId.localStart.toList.isPrefixOf unknownSource.toList) = some false
  decide

/-- The package of a unit stands in the index or is not local. -/
theorem package?_cases [Whereabouts] (h : c.package? env = .ok (some package)) :
    (∃ directory, Mapping.get? c.packages directory = some package) ∨
      package.isLocal? = some false := by
  obtain ⟨found, hfound, h⟩ := bind_eq_ok.1 h
  cases found with
  | none => exact .inr (isLocal?_of_named? (Except.ok.inj h))
  | some id =>
    cases Except.ok.inj h
    unfold indexed? at hfound
    split at hfound
    · cases hfound
    · dsimp only at hfound
      split at hfound
      · cases hfound
      · exact .inl ⟨_, Except.ok.inj hfound⟩

end WrapperContext

namespace Wrapper

variable {files : FileTree} {env : Environment} {name : String} {args : List Value}
  {compile : FileTree → CompilerCall → Logged ToolResult}

/-- What is known of the unit that a wrapper announces. -/
structure Announces [Whereabouts] (c : WrapperContext) (env : Environment) (args : List Value)
    (u : CompileUnit) : Prop where
  package : c.package? env = .ok (some u.package)
  args : u.args = args
  customBuild : ∃ b, u.customBuild = .bool b
  place : ∃ b, u.package.isLocal? = some b ∧ u.isLocal = .bool b

theorem announces_of_unit? [Whereabouts] {context : Option WrapperContext} {c : WrapperContext}
    {u : CompileUnit} (h : unit? context args env = .ok (some (c, u))) :
    context = some c ∧ Announces c env args u := by
  unfold unit? at h
  cases context with
  | none => cases h
  | some c' =>
    obtain ⟨package, hpackage, h⟩ := bind_eq_ok.1 h
    split at h
    · rename_i id crateName _ _
      obtain ⟨_, -, h⟩ := bind_eq_ok.1 h
      split at h
      · cases h
      · obtain ⟨script, -, h⟩ := bind_eq_ok.1 h
        obtain ⟨v, hv, h⟩ := bind_eq_ok.1 h
        cases h
        obtain ⟨b, hb, hv⟩ := bind_eq_ok.1 hv
        cases hv
        exact ⟨rfl, hpackage, rfl, ⟨script, rfl⟩, b, orWrongType_eq_ok.1 hb, rfl⟩
    · cases h

/-- The records of a plan are those that a recorder keeps of the unit. -/
theorem exists_unit?_of_mem_plan [Whereabouts] {context : Option WrapperContext} {p : Plan}
    {r : InvocationRecord} (h : (plan context args env).result = .ok p) (hr : r ∈ p.records) :
    ∃ c u, unit? context args env = .ok (some (c, u)) ∧ u.kept? = some r ∧
      InvocationRecord.ofArguments u.package u.args u.customBuild = .ok r := by
  obtain ⟨unit, hunit, h⟩ := Logged.result_bind_eq_ok.1 h
  cases unit with
  | none =>
    cases h
    cases hr
  | some unit =>
    obtain ⟨c, u⟩ := unit
    obtain ⟨⟨d, recorder⟩, observed, h⟩ := Logged.result_bind_eq_ok.1 h
    have parsed := CompileUnit.isParsed_of_observe observed
    rw [Recorder.result_observe _ parsed] at observed
    cases observed
    cases h
    obtain ⟨record, hrecord⟩ := parsed
    have drained : ((Recorder.fresh c.cargoExe).appendAll u.kept?.toList).drain.1 =
        u.kept?.toList := List.nil_append _
    have kept : u.kept? = some r := Option.mem_toList.1 (drained ▸ hr)
    cases CompileUnit.eq_of_kept? hrecord kept
    exact ⟨c, u, hunit, kept, hrecord⟩

theorem exists_unit?_of_mem_spooled [Whereabouts] {r : InvocationRecord}
    (h : r ∈ (run files env name args compile).spooled) :
    ∃ context c u, WrapperContext.ofEnvironment files env = .ok context ∧
      unit? context args env = .ok (some (c, u)) ∧ u.kept? = some r ∧
      InvocationRecord.ofArguments u.package u.args u.customBuild = .ok r := by
  unfold run at h
  split at h
  · cases h
  · rename_i context hcontext
    dsimp only at h
    split at h
    · cases h
    · rename_i p hp
      split at h
      · cases h
      · obtain ⟨c, u, unit⟩ := exists_unit?_of_mem_plan hp h
        exact ⟨context, c, u, hcontext, unit⟩

theorem of_mem_spooled [Whereabouts] {r : InvocationRecord}
    (h : r ∈ (run files env name args compile).spooled) :
    ∃ c u, WrapperContext.ofEnvironment files env = .ok (some c) ∧ Announces c env args u ∧
      u.kept? = some r ∧ InvocationRecord.ofArguments u.package u.args u.customBuild = .ok r := by
  obtain ⟨context, c, u, hcontext, hunit, kept⟩ := exists_unit?_of_mem_spooled h
  obtain ⟨rfl, announces⟩ := announces_of_unit? hunit
  exact ⟨c, u, hcontext, announces, kept⟩

end Wrapper

/-! ### Record files -/

/-- Whether bytes are those of a record file which a wrapper left, with any environment and
arguments, that found the text of an index in its spool directory. -/
def Spool.IsLeftUnder [Whereabouts] (index : String) (bytes : ByteArray) : Prop :=
  ∃ files env name args compile directory r,
    Environment.nonempty? env Spool.directoryVariable = some directory ∧
    FileTree.isFile files ((Path.ofText directory).child indexName) = .ok true ∧
    FileTree.read files ((Path.ofText directory).child indexName) = .ok index ∧
    r ∈ (Wrapper.run files env name (List.map Value.text args) compile).spooled ∧
    bytes = recordBytes r

/-- A record file that was left under an index holds a record of a local package of the index. -/
theorem Spool.of_isLeftUnder [Whereabouts] {index : PackagesIndex}
    (ids : ∀ e ∈ index, e.2.IsFaithful)
    {bytes : ByteArray} (h : IsLeftUnder index.toText bytes) {record : InvocationRecord}
    (read : readRecord bytes = .ok record) :
    record.package.isLocal? = some true ∧ ∃ e ∈ index, e.2 = record.package := by
  obtain ⟨files, env, name, args, compile, directory, r, told, isFile, held, left, content⟩ := h
  rw [content] at read
  obtain ⟨c, u, context, announces, kept, parsed⟩ := Wrapper.of_mem_spooled left
  have packages : PackagesIndex.ofText index.toText = .ok c.packages := by
    rw [WrapperContext.ofEnvironment, told] at context
    obtain ⟨packages, hread, context⟩ := bind_eq_ok.1 context
    cases context
    rw [PackagesIndex.read, isFile, held] at hread
    exact hread
  have texts : ∀ v ∈ u.args, v.IsText := fun v hv => by
    rw [announces.args] at hv
    obtain ⟨s, -, rfl⟩ := List.mem_map.1 hv
    exact ⟨s, rfl⟩
  obtain ⟨package, customBuild, hname, htype⟩ := InvocationRecord.isText_of_ofArguments texts parsed
  obtain ⟨b, hlocal, hplace⟩ := announces.place
  -- A record is kept of a local unit only, so the package is one of the index.
  have isLocal : b = true := by
    unfold CompileUnit.kept? at kept
    split at kept
    · rename_i place
      rw [hplace] at place
      exact place
    · cases kept
  rw [isLocal] at hlocal
  rcases WrapperContext.package?_cases announces.package with ⟨_, found⟩ | elsewhere
  · obtain ⟨e, he, heq⟩ := PackagesIndex.exists_of_ofText_toText ids packages found
    have ofTexts : r.IsOfTexts :=
      ⟨announces.customBuild.imp fun _ hb => customBuild.trans hb, hname, htype⟩
    have faithful : r.package.IsFaithful := by
      rw [package, ← heq]
      exact ids e he
    have same : record.package = u.package :=
      (package_of_readRecord ofTexts faithful read).trans package
    exact ⟨same ▸ hlocal, e, he, heq.trans same.symm⟩
  · cases hlocal.symm.trans elsewhere

end UnusedDeps
