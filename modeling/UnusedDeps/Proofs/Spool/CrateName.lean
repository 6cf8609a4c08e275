import UnusedDeps.Proofs.Invocation.Parsed
import UnusedDeps.Proofs.Spool.Origin

/-!
# The crate name that a wrapper goes by

Two readers look for the crate name of a unit. A record holds the last value of
the flag, where a flag always takes the argument behind it. The wrapper looks for
the first argument that is spelled like the flag, even where it is the value of
another one, and goes by what stands behind it: that name decides which units only
probe the compiler and which records are marked as build scripts. Main statement:
`isOneName_iff`, which says when both readers see the same name.
-/

namespace UnusedDeps

/-! ### Arguments behind a flag -/

/-- Whether a text stands behind an argument that is spelled like a flag. -/
def IsBehind (flag : String) (args : List String) (value : String) : Prop :=
  ∃ before after, args = before ++ flag :: value :: after

/-- Whether a text stands behind the first argument that is spelled like a flag. -/
def IsFirstBehind (flag : String) (args : List String) (value : String) : Prop :=
  ∃ before after, args = before ++ flag :: value :: after ∧ flag ∉ before

section

variable {flag value : String} {args : List String}

theorem IsFirstBehind.isBehind (h : IsFirstBehind flag args value) : IsBehind flag args value := by
  obtain ⟨before, after, joined, -⟩ := h
  exact ⟨before, after, joined⟩

theorem isFirstBehind_cons {arg : String} :
    IsFirstBehind flag (arg :: args) value ↔
      (arg = flag ∧ ∃ after, args = value :: after) ∨
        (arg ≠ flag ∧ IsFirstBehind flag args value) := by
  constructor
  · rintro ⟨before, after, joined, fresh⟩
    cases before with
    | nil =>
      cases joined
      exact Or.inl ⟨rfl, after, rfl⟩
    | cons first before =>
      cases joined
      rw [List.mem_cons, not_or] at fresh
      exact Or.inr ⟨Ne.symm fresh.1, before, after, rfl, fresh.2⟩
  · rintro (⟨rfl, after, rfl⟩ | ⟨other, before, after, rfl, fresh⟩)
    · exact ⟨[], after, rfl, List.not_mem_nil⟩
    · exact ⟨arg :: before, after, rfl, List.not_mem_cons_of_ne_of_not_mem other.symm fresh⟩

theorem IsBehind.exists_isFirstBehind (h : IsBehind flag args value) :
    ∃ first, IsFirstBehind flag args first := by
  obtain ⟨before, after, rfl⟩ := h
  by_cases mentioned : flag ∈ before
  · obtain ⟨front, rest, rfl, fresh⟩ := List.eq_append_cons_of_mem mentioned
    cases rest with
    -- Where the first mention ends the front, the flag itself stands behind it.
    | nil => exact ⟨flag, front, value :: after, by simp, fresh⟩
    | cons first rest => exact ⟨first, front, rest ++ flag :: value :: after, by simp, fresh⟩
  · exact ⟨value, before, after, rfl, mentioned⟩

end

/-! ### What the parser reads -/

section

variable {args : List String} {parts : List ArgumentPart} {waiting : Option CompilerFlag}
  (apart : ComesApart args parts waiting)
include apart

theorem ComesApart.isBehind {flag : CompilerFlag} {value : String}
    (h : .valued flag value ∈ parts) : IsBehind flag.spelling args value := by
  obtain ⟨front, rest, rfl⟩ := List.append_of_mem h
  refine ⟨front.flatMap ArgumentPart.args,
    rest.flatMap ArgumentPart.args ++ (waiting.map CompilerFlag.spelling).toList, ?_⟩
  rw [apart.joined, List.flatMap_append, List.flatMap_cons, ArgumentPart.args]
  simp

theorem ComesApart.isBehind_of_lastGives {name : String}
    (h : LastGives (Supplies .crateName) (ArgumentPart.pairs parts) name) :
    IsBehind CompilerFlag.crateName.spelling args name := by
  obtain ⟨before, pair, after, joined, rfl, -⟩ := h
  have given : (CompilerFlag.crateName, name) ∈ parts.filterMap ArgumentPart.pair? := by
    rw [ArgumentPart.pairs] at joined
    rw [joined]
    exact List.mem_append_right _ List.mem_cons_self
  obtain ⟨part, hpart, told⟩ := List.mem_filterMap.1 given
  cases part with
  | valued flag value =>
    cases told
    exact apart.isBehind hpart
  | attached option => cases told
  | plain arg => cases told

theorem InvocationRecord.lastGives_crateName {package : PackageId} {customBuild : Value}
    {r : InvocationRecord} (accepted : ofArguments package (args.map .text) customBuild = .ok r) :
    ∃ name, LastGives (Supplies .crateName) (ArgumentPart.pairs parts) name ∧
      r.crateName = .text name :=
  ((ofArguments_eq_ok_iff apart (named_of_ofArguments apart accepted)).1 accepted).crateName

end

theorem LastGives.unique {a : RequiredArgument} {pairs : List (CompilerFlag × String)}
    {value value' : String} (h : LastGives (Supplies a) pairs value)
    (h' : LastGives (Supplies a) pairs value') : value = value' := by
  rw [lastGives_iff supplied?_eq_some_iff] at h h'
  exact Option.some.inj (h.symm.trans h')

namespace Wrapper

/-! ### What the wrapper sees -/

theorem crateName?_eq_some_iff {args : List String} {seen : String} :
    crateName? (args.map .text) = some (.text seen) ↔
      IsFirstBehind CompilerFlag.crateName.spelling args seen := by
  induction args with
  | nil => simp [crateName?, IsFirstBehind]
  | cons arg args ih =>
    rw [isFirstBehind_cons, ← ih]
    cases args with
    | nil => simp [crateName?]
    | cons value rest =>
      -- Pairs overlap: what stands behind another flag is looked at as a flag in its turn.
      have spelled : Value.text arg = .text "--crate-name" ↔
          arg = CompilerFlag.crateName.spelling := by
        rw [Value.text.injEq]
        rfl
      rw [List.map_cons, List.map_cons, crateName?]
      simp only [spelled]
      by_cases flag : arg = CompilerFlag.crateName.spelling
      · simp [flag]
      · simp [flag]

section

variable {c : WrapperContext} {env : Environment} {args : List Value} {seen : String}
  (named : crateName? args = some (.text seen))
include named

theorem unit?_of_crateName? [Whereabouts] {package : PackageId}
    (found : c.package? env = .ok (some package)) : unit? (some c) args env =
      if seen = probeName then .ok none
      else CompileUnit.ofPackage package args
        (.bool (buildScriptStart.toList.isPrefixOf seen.toList)) >>= fun u =>
          .ok (some (c, u)) := by
  have filtered : (crateName? args).filter (· ≠ .null) = some (.text seen) := by
    rw [named]
    rfl
  simp only [unit?, found, filtered, bind, Except.bind, orWrongType, Value.key?, isBuildScript,
    Value.text.injEq]
  rfl

theorem unit?_eq_none_iff [Whereabouts] {package : PackageId}
    (found : c.package? env = .ok (some package)) :
    unit? (some c) args env = .ok none ↔ seen = probeName := by
  rw [unit?_of_crateName? named found]
  split
  · rename_i probe
    exact ⟨fun _ => probe, fun _ => rfl⟩
  · rename_i other
    refine ⟨fun h => ?_, fun probe => absurd probe other⟩
    obtain ⟨u, -, announced⟩ := bind_eq_ok.1 h
    cases announced

theorem customBuild_of_unit? [Whereabouts] {context : Option WrapperContext} {u : CompileUnit}
    (h : unit? context args env = .ok (some (c, u))) :
    u.customBuild = .bool (buildScriptStart.toList.isPrefixOf seen.toList) := by
  obtain ⟨rfl, announces⟩ := announces_of_unit? h
  rw [unit?_of_crateName? named announces.package] at h
  split at h
  · cases h
  · obtain ⟨u', hu, announced⟩ := bind_eq_ok.1 h
    cases announced
    obtain ⟨_, -, hu⟩ := bind_eq_ok.1 hu
    exact congrArg CompileUnit.customBuild (pure_eq_ok.1 hu).symm

end

/-! ### Both together -/

/-- Whether the wrapper and the record of a unit go by one crate name: the wrapper sees that of the
record, every record that it leaves is marked as a build script exactly when its crate name starts
like one, and a unit that it passes on as a probe would be recorded under the name of probes. -/
structure IsOneName [Whereabouts] (args : List String) (r : InvocationRecord) : Prop where
  same : crateName? (args.map .text) = some r.crateName
  scripts : ∀ files env stem compile,
    ∀ s ∈ (run files env stem (args.map .text) compile).spooled, s.customBuild = .bool true ↔
      ∃ name, s.crateName = .text name ∧ buildScriptStart.toList <+: name.toList
  probes : ∀ c env package, WrapperContext.package? c env = .ok (some package) →
    unit? (some c) (args.map .text) env = .ok none → r.crateName = .text probeName

section

variable {args : List String} {parts : List ArgumentPart} {waiting : Option CompilerFlag}
  (apart : ComesApart args parts waiting) {package : PackageId} {customBuild : Value}
  {r : InvocationRecord}
  (accepted : InvocationRecord.ofArguments package (args.map .text) customBuild = .ok r)
include apart accepted

/-- A record that the wrapper leaves has the crate name of any record of its arguments, and is
marked as a build script by the name that the wrapper sees. -/
theorem of_mem_spooled_texts [Whereabouts] {seen : String}
    (named : crateName? (args.map .text) = some (.text seen)) {files : FileTree}
    {env : Environment} {stem : String} {compile : FileTree → CompilerCall → Logged ToolResult}
    {s : InvocationRecord} (h : s ∈ (run files env stem (args.map .text) compile).spooled) :
    s.crateName = r.crateName ∧
      (s.customBuild = .bool true ↔ buildScriptStart.toList <+: seen.toList) := by
  obtain ⟨context, c, u, -, hunit, -, recorded⟩ := exists_unit?_of_mem_spooled h
  have script := customBuild_of_unit? named hunit
  rw [(announces_of_unit? hunit).2.args] at recorded
  obtain ⟨name, last, hname⟩ := InvocationRecord.lastGives_crateName apart accepted
  obtain ⟨name', last', hname'⟩ := InvocationRecord.lastGives_crateName apart recorded
  have marked : s.customBuild = u.customBuild :=
    ((InvocationRecord.ofArguments_eq_ok_iff apart
      (InvocationRecord.named_of_ofArguments apart recorded)).1 recorded).customBuild
  refine ⟨by rw [hname, hname', last.unique last'], ?_⟩
  rw [marked, script, Value.bool.injEq, List.isPrefixOf_iff_prefix]

theorem isOneName_of_same [Whereabouts] (same : crateName? (args.map .text) = some r.crateName) :
    IsOneName args r := by
  obtain ⟨name, -, hname⟩ := InvocationRecord.lastGives_crateName apart accepted
  have named : crateName? (args.map .text) = some (.text name) := hname ▸ same
  refine ⟨same, fun files env stem compile s hs => ?_, fun c env package found probe => ?_⟩
  · obtain ⟨recorded, marked⟩ := of_mem_spooled_texts apart accepted named hs
    simp only [marked, recorded, hname, Value.text.injEq, exists_eq_left']
  · rw [hname, (unit?_eq_none_iff named found).1 probe]

/-- The wrapper and the record go by one crate name exactly when what stands behind the first
mention of the flag is the last value that is read for it. -/
theorem isOneName_iff [Whereabouts] :
    (IsOneName args r ↔ ∃ name, IsFirstBehind CompilerFlag.crateName.spelling args name ∧
        LastGives (Supplies .crateName) (ArgumentPart.pairs parts) name) ∧
      ((∀ v w, IsBehind CompilerFlag.crateName.spelling args v →
        IsBehind CompilerFlag.crateName.spelling args w → v = w) → IsOneName args r) := by
  obtain ⟨name, last, hname⟩ := InvocationRecord.lastGives_crateName apart accepted
  have one : IsOneName args r ↔ IsFirstBehind CompilerFlag.crateName.spelling args name := by
    rw [← crateName?_eq_some_iff, ← hname]
    exact ⟨fun h => h.same, isOneName_of_same apart accepted⟩
  rw [one]
  refine ⟨⟨fun first => ⟨name, first, last⟩, fun ⟨name', first, last'⟩ => ?_⟩, fun alike => ?_⟩
  · rwa [last.unique last']
  · have behind := apart.isBehind_of_lastGives last
    obtain ⟨first, hfirst⟩ := behind.exists_isFirstBehind
    rwa [alike name first behind hfirst.isBehind]

end

/-- The arguments of a build script that mention the flag for the crate name once. -/
def scriptArguments : List String :=
  ["--crate-name", "build_script_build", "-C", "extra-filename=-1", "--out-dir", "out"]

def scriptRecord : InvocationRecord where
  package := ⟨.text "app", .text "0.1.0", .text "path+file:///app"⟩
  customBuild := .bool true
  crateName := .text "build_script_build"
  crateType := .text "bin"
  extraFilename := "-1"
  capLintsAllow := false
  outDir := Path.ofText "out"
  externs := []

theorem isOneName_scriptArguments : IsOneName scriptArguments scriptRecord := by
  have apart : ComesApart scriptArguments [.valued .crateName "build_script_build",
      .valued .codegen "extra-filename=-1", .valued .outDir "out"] none := ⟨by decide, rfl⟩
  have accepted : InvocationRecord.ofArguments scriptRecord.package (scriptArguments.map .text)
      scriptRecord.customBuild = .ok scriptRecord := rfl
  refine (isOneName_iff apart accepted).1.2 ⟨"build_script_build", ?_, ?_⟩
  · exact crateName?_eq_some_iff.1 rfl
  · exact (lastGives_iff supplied?_eq_some_iff).2 rfl

/-- A flag that is the value of another one hides the crate name from the wrapper. -/
theorem not_isOneName :
    ¬∀ (args : List String) (package : PackageId) (customBuild : Value) (r : InvocationRecord),
      InvocationRecord.ofArguments package (args.map .text) customBuild = .ok r →
        IsOneName args r := by
  intro one
  have accepted : InvocationRecord.ofArguments scriptRecord.package
      (["--out-dir", "--crate-name", "--crate-name", "build_script_build", "-C",
        "extra-filename=-1"].map .text) scriptRecord.customBuild =
      .ok { scriptRecord with outDir := Path.ofText "--crate-name" } := rfl
  exact absurd (one _ _ _ _ accepted).same (by decide)

end Wrapper

end UnusedDeps
