import UnusedDeps.Options.Run
import UnusedDeps.Proofs.Path
import UnusedDeps.Proofs.Steps

/-!
# Reading the arguments of a command back

The arguments that options become can be read from left to right without looking
ahead: a switch changes an option by itself, and every other flag gives the
argument after it to an option, whatever that argument looks like. Reading them
gives the options back, as far as a build knows of them. Main statement:
`isToldWhole_arguments`.
-/

namespace UnusedDeps

namespace Text

/-- Whether a text is one word. -/
def IsWord (s : String) : Prop := s ≠ "" ∧ ∀ c ∈ s.toList, isBlank c = false

instance (s : String) : Decidable (IsWord s) :=
  @instDecidableAnd _ _ _ (List.decidableBAll _ _)

/-- Words with blanks between them come apart again. -/
theorem words_intercalate {ws : List String} (h : ∀ w ∈ ws, IsWord w) :
    words (String.intercalate " " ws) = ws := by
  cases ws with
  | nil => decide
  | cons w ws =>
    have space : " ".toList = [' '] := rfl
    have blank : isBlank ' ' = true := by decide
    have apart : ∀ cs ∈ (w :: ws).map String.toList, ∀ c ∈ cs, isBlank c = false := by
      intro cs hcs
      obtain ⟨v, hv, rfl⟩ := List.mem_map.1 hcs
      exact (h v hv).2
    have filled : ∀ cs ∈ (w :: ws).map String.toList, (!cs.isEmpty) = true := by
      intro cs hcs
      obtain ⟨v, hv, rfl⟩ := List.mem_map.1 hcs
      simpa using (h v hv).1
    rw [words, String.toList_intercalate, space, pieces_intercalate blank (by simp) apart,
      List.filter_eq_self.2 filled, List.map_map, Function.comp_def]
    simp only [String.ofList_toList, List.map_id']

end Text

namespace RunOptions

/-! ### Fields -/

/-- A field of the options, with the laws of reading and writing it. -/
structure OptionField (α : Type) where
  get : RunOptions → α
  put : α → RunOptions → RunOptions
  put_get : ∀ o, put (get o) o = o := by intros; rfl
  get_put : ∀ a o, get (put a o) = a := by intros; rfl
  put_put : ∀ a b o, put a (put b o) = put a o := by intros; rfl

/-! ### Flags -/

/-- What a flag does with the options. -/
inductive FlagMeaning where
  | switch (set : RunOptions → RunOptions)
  /-- The flag takes the argument after it as its value. -/
  | valued (set : String → RunOptions → RunOptions)

namespace FlagMeaning

variable {α : Type}

/-- The flag turns a field on. -/
def turnOn (field : OptionField Bool) : FlagMeaning := switch (field.put true)

/-- The field becomes what the value denotes. -/
def store (field : OptionField (Option α)) (denoted : String → α) : FlagMeaning :=
  valued fun v => field.put (some (denoted v))

/-- What the value denotes is added to the field. -/
def collect (field : OptionField (List String)) (denoted : String → List String) : FlagMeaning :=
  valued fun v o => field.put (field.get o ++ denoted v) o

/-- The build talks, more or less. -/
def talk (times : Int) : FlagMeaning := switch fun o => { o with verbose := times }

end FlagMeaning

open FlagMeaning

/-- The flags. The one that makes the build talk is a dash with a letter for each time. -/
def flagMeanings : List (String × FlagMeaning) :=
  [ ("--package", collect { get := packages, put := fun a o => { o with packages := a } } ([·])),
    ("--workspace", turnOn { get := workspace, put := fun a o => { o with workspace := a } }),
    ("--exclude", collect { get := exclude, put := fun a o => { o with exclude := a } } ([·])),
    ("--jobs", store { get := jobs, put := fun a o => { o with jobs := a } } id),
    ("--lib", turnOn { get := lib, put := fun a o => { o with lib := a } }),
    ("--bins", turnOn { get := bins, put := fun a o => { o with bins := a } }),
    ("--examples", turnOn { get := examples, put := fun a o => { o with examples := a } }),
    ("--tests", turnOn { get := tests, put := fun a o => { o with tests := a } }),
    ("--benches", turnOn { get := benches, put := fun a o => { o with benches := a } }),
    ("--all-targets", turnOn { get := allTargets, put := fun a o => { o with allTargets := a } }),
    ("--bin", collect { get := binNames, put := fun a o => { o with binNames := a } } ([·])),
    ("--example",
      collect { get := exampleNames, put := fun a o => { o with exampleNames := a } } ([·])),
    ("--test", collect { get := testNames, put := fun a o => { o with testNames := a } } ([·])),
    ("--bench", collect { get := benchNames, put := fun a o => { o with benchNames := a } } ([·])),
    ("--release", turnOn { get := release, put := fun a o => { o with release := a } }),
    ("--profile", store { get := profile, put := fun a o => { o with profile := a } } id),
    ("--features",
      collect { get := features, put := fun a o => { o with features := a } } Text.words),
    ("--all-features",
      turnOn { get := allFeatures, put := fun a o => { o with allFeatures := a } }),
    ("--no-default-features",
      turnOn { get := noDefaultFeatures, put := fun a o => { o with noDefaultFeatures := a } }),
    ("--target", store { get := target, put := fun a o => { o with target := a } } id),
    ("--target-dir",
      store { get := targetDir, put := fun a o => { o with targetDir := a } } Path.ofText),
    ("--manifest-path",
      store { get := manifestPath, put := fun a o => { o with manifestPath := a } } Path.ofText),
    ("--frozen", turnOn { get := frozen, put := fun a o => { o with frozen := a } }),
    ("--locked", turnOn { get := locked, put := fun a o => { o with locked := a } }),
    ("--offline", turnOn { get := offline, put := fun a o => { o with offline := a } }),
    ("-", talk 0), ("-v", talk 1), ("-vv", talk 2),
    ("--quiet", turnOn { get := quiet, put := fun a o => { o with quiet := a } }) ]

def flagMeaning? (name : String) : Option FlagMeaning := flagMeanings.lookup name

/-- The options after arguments are read from left to right. -/
def readFlags : RunOptions → List String → Option RunOptions
  | o, [] => some o
  | o, [name] =>
    match flagMeaning? name with
    | some (.switch set) => some (set o)
    | _ => none
  | o, name :: value :: rest =>
    match flagMeaning? name with
    | some (.switch set) => readFlags (set o) (value :: rest)
    | some (.valued set) => readFlags (set value o) rest
    | none => none

/-- The options that arguments give. -/
def ofFlags? (args : List String) : Option RunOptions := readFlags {} args

section Reading

variable {α : Type} (o : RunOptions) (rest : List String)

theorem readFlags_switch {set : RunOptions → RunOptions} (name : String)
    (h : flagMeaning? name = some (.switch set)) :
    readFlags o (name :: rest) = readFlags (set o) rest := by
  cases rest <;> simp only [readFlags, h]

theorem readFlags_valued {set : String → RunOptions → RunOptions} (name : String)
    (h : flagMeaning? name = some (.valued set)) (value : String) :
    readFlags o (name :: value :: rest) = readFlags (set value o) rest := by
  simp only [readFlags, h]

theorem readFlags_flag {field : OptionField Bool} (name : String)
    (h : flagMeaning? name = some (turnOn field)) (isSet : Bool) :
    readFlags o (flag name isSet ++ rest) = readFlags (field.put (field.get o || isSet) o) rest := by
  cases isSet with
  | false => rw [Bool.or_false, field.put_get]; rfl
  | true =>
    rw [Bool.or_true]
    exact readFlags_switch o rest name h

theorem readFlags_repeated {field : OptionField (List String)} (name : String)
    (h : flagMeaning? name = some (collect field ([·]))) (values : List String) :
    readFlags o (repeated name values ++ rest) =
      readFlags (field.put (field.get o ++ values) o) rest := by
  induction values generalizing o with
  | nil =>
    rw [List.append_nil, field.put_get]
    rfl
  | cons v values ih =>
    have step := readFlags_valued o (repeated name values ++ rest) name h v
    rw [ih, field.get_put, field.put_put, List.append_assoc, List.singleton_append] at step
    exact step

theorem readFlags_valued_toList {field : OptionField (Option α)} {denoted : String → α}
    (name : String) (h : flagMeaning? name = some (store field denoted)) (value : Option String) :
    readFlags o (RunOptions.valued name value ++ rest) =
      readFlags (field.put ((value.map denoted).or (field.get o)) o) rest := by
  cases value with
  | none => rw [Option.map_none, Option.none_or, field.put_get]; rfl
  | some v => exact readFlags_valued o rest name h v

/-! ### The arguments of options -/

theorem readFlags_targetArgs (p : RunOptions) :
    readFlags o (p.targetArgs ++ rest) = readFlags { o with
      lib := o.lib || p.lib, bins := o.bins || p.bins, examples := o.examples || p.examples,
      tests := o.tests || p.tests, benches := o.benches || p.benches,
      allTargets := o.allTargets || p.allTargets, binNames := o.binNames ++ p.binNames,
      exampleNames := o.exampleNames ++ p.exampleNames, testNames := o.testNames ++ p.testNames,
      benchNames := o.benchNames ++ p.benchNames } rest := by
  simp only [targetArgs, List.append_assoc]
  rw [readFlags_flag _ _ "--lib" rfl, readFlags_flag _ _ "--bins" rfl,
    readFlags_flag _ _ "--examples" rfl, readFlags_flag _ _ "--tests" rfl,
    readFlags_flag _ _ "--benches" rfl, readFlags_flag _ _ "--all-targets" rfl,
    readFlags_repeated _ _ "--bin" rfl, readFlags_repeated _ _ "--example" rfl,
    readFlags_repeated _ _ "--test" rfl, readFlags_repeated _ _ "--bench" rfl]

theorem readFlags_featureArgs (p : RunOptions) :
    readFlags o (p.featureArgs ++ rest) = readFlags { o with
      features := o.features ++ Text.words (String.intercalate " " p.features),
      allFeatures := o.allFeatures || p.allFeatures,
      noDefaultFeatures := o.noDefaultFeatures || p.noDefaultFeatures } rest := by
  have listed (rest : List String) :
      readFlags o ((if p.features.isEmpty then [] else
        ["--features", String.intercalate " " p.features]) ++ rest) = readFlags { o with
          features := o.features ++ Text.words (String.intercalate " " p.features) } rest := by
    cases p.features with
    | nil =>
      have none : Text.words (String.intercalate " " []) = [] := by decide
      rw [none, List.append_nil]
      rfl
    | cons f features => exact readFlags_valued o rest "--features" rfl _
  simp only [featureArgs, List.append_assoc]
  rw [listed, readFlags_flag _ _ "--all-features" rfl,
    readFlags_flag _ _ "--no-default-features" rfl]

theorem readFlags_path {field : OptionField (Option Path)} (name : String)
    (h : flagMeaning? name = some (store field Path.ofText)) (path : Option Path) :
    readFlags o (RunOptions.valued name (path.map (·.text)) ++ rest) =
      readFlags (field.put (path.or (field.get o)) o) rest := by
  have back : (path.map (·.text)).map Path.ofText = path := by
    cases path with
    | none => rfl
    | some p => exact congrArg some (Path.ofText_text p)
  rw [readFlags_valued_toList o rest name h, back]

theorem readFlags_manifestArgs (p : RunOptions) :
    readFlags o (p.manifestArgs ++ rest) = readFlags { o with
      manifestPath := p.manifestPath.or o.manifestPath, frozen := o.frozen || p.frozen,
      locked := o.locked || p.locked, offline := o.offline || p.offline } rest := by
  simp only [manifestArgs, List.append_assoc]
  rw [readFlags_path _ _ "--manifest-path" rfl, readFlags_flag _ _ "--frozen" rfl,
    readFlags_flag _ _ "--locked" rfl, readFlags_flag _ _ "--offline" rfl]

theorem readFlags_verboseArgs {p : RunOptions} {talk : List String} (h : p.verboseArgs = .ok talk)
    (silent : o.verbose = 0) :
    readFlags o (talk ++ rest) =
      readFlags { o with verbose := max 0 (min p.verbose 2) } rest := by
  unfold verboseArgs at h
  split at h
  · cases h
  split at h
  · rename_i never
    cases h
    have same : max 0 (min p.verbose 2) = o.verbose := by omega
    rw [same]
    rfl
  · cases h
    have times : max 0 (min p.verbose 2) = ((min p.verbose 2).toNat : Int) := by omega
    have most : (min p.verbose 2).toNat ≤ 2 := by omega
    rw [times]
    obtain quiet | once | twice : (min p.verbose 2).toNat = 0 ∨ (min p.verbose 2).toNat = 1 ∨
        (min p.verbose 2).toNat = 2 := by omega
    · rw [quiet]
      exact readFlags_switch o rest "-" rfl
    · rw [once]
      exact readFlags_switch o rest "-v" rfl
    · rw [twice]
      exact readFlags_switch o rest "-vv" rfl

end Reading

/-- The options that the arguments of the `check` command give, whatever the options are. -/
theorem ofFlags?_checkArgs {o : RunOptions} {args : List String} (h : o.checkArgs = .ok args) :
    ofFlags? (args.drop 3) = some { o with
      output := .human, verbose := max 0 (min o.verbose 2),
      features := Text.words (String.intercalate " " o.features) } := by
  obtain ⟨talk, htalk, h⟩ := bind_eq_ok.1 h
  cases pure_eq_ok.1 h
  simp only [List.append_assoc, List.cons_append, List.nil_append, List.drop_succ_cons,
    List.drop_zero, ofFlags?]
  rw [← List.append_nil (flag "--quiet" o.quiet), readFlags_repeated _ _ "--package" rfl,
    readFlags_flag _ _ "--workspace" rfl, readFlags_repeated _ _ "--exclude" rfl,
    readFlags_valued_toList _ _ "--jobs" rfl, readFlags_targetArgs,
    readFlags_flag _ _ "--release" rfl, readFlags_valued_toList _ _ "--profile" rfl,
    readFlags_featureArgs, readFlags_valued_toList _ _ "--target" rfl,
    readFlags_path _ _ "--target-dir" rfl, readFlags_manifestArgs,
    readFlags_verboseArgs _ _ htalk rfl, readFlags_flag _ _ "--quiet" rfl]
  simp [readFlags]

theorem ofFlags?_metadataArgs (o : RunOptions) :
    ofFlags? (o.metadataArgs.drop 3) = some
      { features := Text.words (String.intercalate " " o.features), allFeatures := o.allFeatures,
        noDefaultFeatures := o.noDefaultFeatures, manifestPath := o.manifestPath,
        frozen := o.frozen, locked := o.locked, offline := o.offline } := by
  simp only [metadataArgs, List.cons_append, List.nil_append, List.drop_succ_cons, List.drop_zero,
    ofFlags?]
  rw [← List.append_nil o.manifestArgs, readFlags_featureArgs, readFlags_manifestArgs]
  simp [readFlags]

theorem ofFlags?_cleanArgs (o : RunOptions) (names : List String) :
    ofFlags? ((o.cleanArgs names).drop 1) = some
      { packages := names, targetDir := o.targetDir, manifestPath := o.manifestPath,
        release := o.release } := by
  simp only [cleanArgs, List.append_assoc, List.cons_append, List.nil_append, List.drop_succ_cons,
    List.drop_zero, ofFlags?]
  rw [← List.append_nil (flag "--release" o.release), readFlags_repeated _ _ "--package" rfl,
    readFlags_path _ _ "--target-dir" rfl, readFlags_path _ _ "--manifest-path" rfl,
    readFlags_flag _ _ "--release" rfl]
  simp [readFlags]

/-! ### What is recovered -/

/-- Whether options are such as a command line gives: the times to talk are counted, and the
features are words. -/
structure IsGivenInWords (o : RunOptions) : Prop where
  counted : 0 ≤ o.verbose
  worded : ∀ f ∈ o.features, Text.IsWord f

/-- The options that a build is told of: all but the form of the report, and it talks at most
twice. -/
def told (o : RunOptions) : RunOptions := { o with output := .human, verbose := min o.verbose 2 }

/-- The options that decide what the workspace is resolved to. -/
def resolving (o : RunOptions) : RunOptions :=
  { features := o.features, allFeatures := o.allFeatures,
    noDefaultFeatures := o.noDefaultFeatures, manifestPath := o.manifestPath, frozen := o.frozen,
    locked := o.locked, offline := o.offline }

/-- Whether the arguments of a build and of its resolution tell what they have to. -/
structure IsToldWhole (o : RunOptions) : Prop where
  check : ∃ args, o.checkArgs = .ok (["check", "--message-format", "short"] ++ args) ∧
    ofFlags? args = some o.told
  /-- The workspace is resolved under the settings of the build. -/
  metadata : ∃ args, o.metadataArgs = ["metadata", "--format-version", "1"] ++ args ∧
    ofFlags? args = some o.told.resolving
  apart : ∀ p : RunOptions, p.IsGivenInWords → p.told ≠ o.told → p.checkArgs ≠ o.checkArgs

theorem exists_verboseArgs {o : RunOptions} (h : -(twoPow 63 : Int) ≤ o.verbose) :
    ∃ talk, o.verboseArgs = .ok talk := by
  rw [verboseArgs, if_neg (Int.not_lt.2 h)]
  split <;> exact ⟨_, rfl⟩

theorem exists_checkArgs {o : RunOptions} (h : -(twoPow 63 : Int) ≤ o.verbose) :
    ∃ args, o.checkArgs = .ok (["check", "--message-format", "short"] ++ args) := by
  obtain ⟨talk, htalk⟩ := exists_verboseArgs h
  rw [checkArgs, htalk]
  exact ⟨_, by simp only [List.append_assoc]; rfl⟩

theorem exists_ofFlags?_checkArgs {o : RunOptions} (h : o.IsGivenInWords) :
    ∃ args, o.checkArgs = .ok (["check", "--message-format", "short"] ++ args) ∧
      ofFlags? args = some o.told := by
  have counted := h.counted
  obtain ⟨args, hargs⟩ := exists_checkArgs (o := o) (by omega)
  have read := ofFlags?_checkArgs hargs
  have times : max 0 (min o.verbose 2) = min o.verbose 2 := by omega
  rw [Text.words_intercalate h.worded, times] at read
  exact ⟨args, hargs, read⟩

/-- No flag is lost: the arguments of a build tell its options, and those of the resolution tell
the ones that it needs. -/
theorem isToldWhole_arguments {o : RunOptions} (h : o.IsGivenInWords) : o.IsToldWhole where
  check := exists_ofFlags?_checkArgs h
  metadata := by
    refine ⟨o.featureArgs ++ o.manifestArgs, List.append_assoc _ _ _, ?_⟩
    have read := ofFlags?_metadataArgs o
    rw [Text.words_intercalate h.worded] at read
    rw [metadataArgs, List.append_assoc] at read
    exact read
  apart := by
    intro p hp differ same
    obtain ⟨args, hargs, read⟩ := exists_ofFlags?_checkArgs h
    obtain ⟨args', hargs', read'⟩ := exists_ofFlags?_checkArgs hp
    rw [same, hargs, Except.ok.injEq, List.append_cancel_left_eq] at hargs'
    rw [← hargs', read, Option.some.injEq] at read'
    exact differ read'.symm

/-- Options whose values look like flags, and which ask for more talk than there is. -/
def flagLike : RunOptions :=
  { output := .json, verbose := 5, packages := ["--frozen", ""], exclude := ["--exclude"],
    jobs := some "--jobs", binNames := ["-vv", "--bins"], profile := some "test",
    features := ["--all-features", "a", "a"], target := some "--quiet",
    targetDir := some (Path.ofText "--target"), manifestPath := some (Path.ofText "/ws//./x"),
    locked := true }

theorem isToldWhole_flagLike : flagLike.IsGivenInWords ∧ flagLike.IsToldWhole := by
  have given : flagLike.IsGivenInWords := ⟨by decide, by decide⟩
  exact ⟨given, isToldWhole_arguments given⟩

end RunOptions

end UnusedDeps
