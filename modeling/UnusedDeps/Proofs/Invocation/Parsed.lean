import Mathlib.Data.List.Induction
import UnusedDeps.Proofs.Failures.Told
import UnusedDeps.Proofs.Invocation.Arguments
import UnusedDeps.Proofs.Invocation.Scan
import UnusedDeps.Proofs.Text.Lines

/-!
# What an argument list comes to

The flags of an argument list with their values decide what becomes of it. The
first alias that is empty refuses the list. Otherwise the first required argument
that no flag supplies is missing, and where none is missing there is a record, in
which the last value of each flag counts. Main statements: `ofArguments_eq_ok_iff`
and `explains_ofArguments`.
-/

namespace UnusedDeps

/-! ### Names with values -/

/-- Whether a text is a name with a value behind an equals sign, or a name alone. -/
def Assigns (s name value : String) : Prop :=
  '=' ∉ name.toList ∧ (s = name ++ "=" ++ value ∨ s = name ∧ value = "")

theorem cutAtEquals_of_assigns {s name value : String} (h : Assigns s name value) :
    cutAtEquals s = (name, value) := by
  obtain ⟨apart, rfl | ⟨rfl, rfl⟩⟩ := h
  · have chars : (name ++ "=" ++ value).toList = name.toList ++ '=' :: value.toList := by
      rw [String.toList_append, String.toList_append, List.append_assoc]
      rfl
    rw [cutAtEquals, chars, Text.cut_append_cons apart]
    simp
  · rw [cutAtEquals, Text.cut_of_notMem apart]
    simp

theorem exists_assigns (s : String) : ∃ name value, Assigns s name value := by
  rcases Text.cut_cases '=' s.toList with apart | ⟨front, r, apart, chars⟩
  · exact ⟨s, "", apart, .inr ⟨rfl, rfl⟩⟩
  · refine ⟨String.ofList front, String.ofList r, by rwa [String.toList_ofList], .inl ?_⟩
    rw [← String.toList_inj, String.toList_append, String.toList_append, chars]
    simp

theorem cutAtEquals_eq_iff {s name value : String} :
    cutAtEquals s = (name, value) ↔ Assigns s name value := by
  refine ⟨fun h => ?_, cutAtEquals_of_assigns⟩
  obtain ⟨name', value', assigns⟩ := exists_assigns s
  cases (cutAtEquals_of_assigns assigns).symm.trans h
  exact assigns

instance (s name value : String) : Decidable (Assigns s name value) :=
  decidable_of_iff _ cutAtEquals_eq_iff

theorem extraFilenameOf?_eq_some_iff {option value : String} :
    extraFilenameOf? option = some value ↔ Assigns option "extra-filename" value := by
  rw [← cutAtEquals_eq_iff, extraFilenameOf?]
  cases cutAtEquals option
  simp

theorem extraFilenameOf?_eq_none_iff {option : String} :
    extraFilenameOf? option = none ↔ ∀ value, ¬Assigns option "extra-filename" value := by
  simp only [Option.eq_none_iff_forall_ne_some, ne_eq, extraFilenameOf?_eq_some_iff]

/-! ### The last one that counts -/

/-- Whether the last element of a list that gives anything gives `b`. -/
def LastGives {α β : Type} (R : α → β → Prop) (xs : List α) (b : β) : Prop :=
  ∃ before x after, xs = before ++ x :: after ∧ R x b ∧ ∀ y ∈ after, ∀ c, ¬R y c

section

variable {α β : Type} {R : α → β → Prop} {g : α → Option β}
  (computes : ∀ {x b}, g x = some b ↔ R x b)
include computes

theorem filterMap_eq_nil_iff_gives {xs : List α} :
    xs.filterMap g = [] ↔ ∀ x ∈ xs, ∀ b, ¬R x b := by
  simp only [List.filterMap_eq_nil_iff, ← computes, Option.eq_none_iff_forall_ne_some, ne_eq]

/-- The last one that gives anything is the last of all that is given. -/
theorem lastGives_iff {xs : List α} {b : β} :
    LastGives R xs b ↔ (xs.filterMap g).getLast? = some b := by
  constructor
  · rintro ⟨before, x, after, rfl, gives, silent⟩
    rw [List.filterMap_append, List.filterMap_cons, computes.2 gives,
      (filterMap_eq_nil_iff_gives computes).2 silent, List.getLast?_concat]
  · intro h
    obtain ⟨bs, hbs⟩ := List.getLast?_eq_some_iff.1 h
    obtain ⟨before, rest, rfl, -, hrest⟩ := List.filterMap_eq_append_iff.1 hbs
    obtain ⟨front, x, after, rfl, hfront, hx, hafter⟩ := List.filterMap_eq_cons_iff.1 hrest
    exact ⟨before ++ front, x, after, by rw [List.append_assoc], computes.1 hx,
      (filterMap_eq_nil_iff_gives computes).1 hafter⟩

end

/-! ### What flags say -/

/-- The values of a flag. -/
def valuesOf (f : CompilerFlag) (pairs : List (CompilerFlag × String)) : List String :=
  pairs.filterMap fun p => if p.1 = f then some p.2 else none

/-- Whether nothing stands before the first equals sign of a value. -/
def IsNameless (value : String) : Prop := ∃ file, Assigns value "" file

/-- Whether a flag with its value says what a required argument is. -/
def Supplies : RequiredArgument → CompilerFlag × String → String → Prop
  | .crateName, p, value => p = (.crateName, value)
  | .extraFilename, p, value => p.1 = .codegen ∧ Assigns p.2 "extra-filename" value
  | .outDir, p, value => p = (.outDir, value)
  | .other _, _, _ => False

/-- Whether some flag says what a required argument is. -/
def IsSupplied (pairs : List (CompilerFlag × String)) (a : RequiredArgument) : Prop :=
  ∃ p ∈ pairs, ∃ value, Supplies a p value

/-- The arguments that a record cannot do without, in the order in which they are asked for. -/
def requiredArguments : List RequiredArgument := [.crateName, .extraFilename, .outDir]

/-- Whether a record is the one that flags with their values tell of: the last value of each flag
counts, and every alias is kept. -/
structure RecordOf (package : PackageId) (customBuild : Value)
    (pairs : List (CompilerFlag × String)) (r : InvocationRecord) : Prop where
  package : r.package = package
  customBuild : r.customBuild = customBuild
  crateName : ∃ name, LastGives (Supplies .crateName) pairs name ∧ r.crateName = .text name
  /-- The crate type is `bin` where none or an empty one is given. -/
  crateType : ∃ type, r.crateType = .text type ∧
    (LastGives (fun p t => p = (.crateType, t)) pairs type ∧ type ≠ "" ∨
      (∀ t, LastGives (fun p t => p = (.crateType, t)) pairs t → t = "") ∧ type = "bin")
  extraFilename : LastGives (Supplies .extraFilename) pairs r.extraFilename
  capLintsAllow : r.capLintsAllow = true ↔ (.capLints, "allow") ∈ pairs
  outDir : ∃ dir, LastGives (Supplies .outDir) pairs dir ∧ r.outDir = Path.ofText dir
  externs : List.Forall₂ (fun value e => Assigns value e.1 e.2) (valuesOf .externCrate pairs)
    r.externs

/-- Whether an outcome is the one that flags with their values explain. -/
structure Explains (package : PackageId) (customBuild : Value)
    (pairs : List (CompilerFlag × String)) (outcome : Except Fault InvocationRecord) : Prop where
  nameless : ∀ value, outcome = .error (.problem (.emptyExtern value)) ↔
    Reached (¬IsNameless ·) (valuesOf .externCrate pairs) value ∧ IsNameless value
  missing : ∀ a, outcome = .error (.problem (.missingArgument a (some package.text))) ↔
    (∀ value ∈ valuesOf .externCrate pairs, ¬IsNameless value) ∧
      Reached (IsSupplied pairs) requiredArguments a ∧ ¬IsSupplied pairs a
  parsed : (∀ value ∈ valuesOf .externCrate pairs, ¬IsNameless value) →
    (∀ a ∈ requiredArguments, IsSupplied pairs a) →
      ∃ r, outcome = .ok r ∧ RecordOf package customBuild pairs r

/-! ### Flags one after another -/

theorem valuesOf_append (f : CompilerFlag) (ps qs : List (CompilerFlag × String)) :
    valuesOf f (ps ++ qs) = valuesOf f ps ++ valuesOf f qs :=
  List.filterMap_append

theorem mem_valuesOf {f : CompilerFlag} {pairs : List (CompilerFlag × String)} {value : String} :
    value ∈ valuesOf f pairs ↔ (f, value) ∈ pairs := by
  simp only [valuesOf, List.mem_filterMap, Option.ite_none_right_eq_some, Option.some.injEq]
  constructor
  · rintro ⟨p, hp, rfl, rfl⟩
    exact hp
  · exact fun h => ⟨_, h, rfl, rfl⟩

/-- What a flag with its value says of a required argument. -/
def supplied? : RequiredArgument → CompilerFlag × String → Option String
  | .crateName, p => if p.1 = .crateName then some p.2 else none
  | .extraFilename, p => if p.1 = .codegen then extraFilenameOf? p.2 else none
  | .outDir, p => if p.1 = .outDir then some p.2 else none
  | .other _, _ => none

theorem pair_eq_iff {f : CompilerFlag} {p : CompilerFlag × String} {value : String} :
    (if p.1 = f then some p.2 else none) = some value ↔ p = (f, value) := by
  rw [Option.ite_none_right_eq_some, Option.some.injEq, Prod.ext_iff]

theorem supplied?_eq_some_iff {a : RequiredArgument} {p : CompilerFlag × String} {value : String} :
    supplied? a p = some value ↔ Supplies a p value := by
  cases a with
  | crateName => exact pair_eq_iff
  | outDir => exact pair_eq_iff
  | extraFilename =>
    rw [supplied?, Option.ite_none_right_eq_some, extraFilenameOf?_eq_some_iff, Supplies]
  | other name => simp [supplied?, Supplies]

theorem isNameless_iff {value : String} : IsNameless value ↔ (cutAtEquals value).1 = "" := by
  simp only [IsNameless, ← cutAtEquals_eq_iff, Prod.ext_iff]
  simp

theorem parseExtern_of_isNameless {value : String} (h : IsNameless value) :
    parseExtern value = .error (.emptyExtern value) := by
  rw [isNameless_iff] at h
  rw [parseExtern]
  simp [h]

theorem parseExtern_of_named {value : String} (h : ¬IsNameless value) :
    parseExtern value = .ok (cutAtEquals value) := by
  rw [isNameless_iff] at h
  rw [parseExtern]
  simp [h]

namespace CompilerArguments

/-- What flags with their values say together. -/
def ofPairs (pairs : List (CompilerFlag × String)) : CompilerArguments where
  externs := (valuesOf .externCrate pairs).map cutAtEquals
  crateName := (pairs.filterMap (supplied? .crateName)).getLast?.map .text
  crateType := (valuesOf .crateType pairs).getLast?.map .text
  capLintsAllow := "allow" ∈ valuesOf .capLints pairs
  outDir := (pairs.filterMap (supplied? .outDir)).getLast?.map .text
  extraFilename := (pairs.filterMap (supplied? .extraFilename)).getLast?

theorem add_externCrate (a : CompilerArguments) (value : String) :
    a.add .externCrate (.text value) =
      (parseExtern value).mapError .problem >>= fun e =>
        .ok { a with externs := a.externs ++ [e] } := by
  simp only [add, textValue, bind, Except.bind, pure, Except.pure]

theorem add_ofPairs (pairs : List (CompilerFlag × String)) {f : CompilerFlag} {value : String}
    (named : f = .externCrate → ¬IsNameless value) :
    (ofPairs pairs).add f (.text value) = .ok (ofPairs (pairs ++ [(f, value)])) := by
  cases f with
  | externCrate =>
    rw [add_externCrate, parseExtern_of_named (named rfl)]
    simp [ofPairs, valuesOf, supplied?, Except.mapError, bind, Except.bind]
  | codegen =>
    show Except.ok _ = _
    cases hextra : extraFilenameOf? value <;> simp [ofPairs, valuesOf, supplied?, hextra]
  | capLints => simp [add, ofPairs, valuesOf, supplied?, Bool.decide_or, eq_comm]
  | crateName | crateType | outDir => simp [add, ofPairs, valuesOf, supplied?]

theorem add_eq_emptyExtern {value : String} (nameless : IsNameless value)
    (a : CompilerArguments) :
    a.add .externCrate (.text value) = .error (.problem (.emptyExtern value)) := by
  rw [add_externCrate, parseExtern_of_isNameless nameless]
  rfl

theorem foldlM_append_cons {pairs : List (CompilerFlag × String)} {a : CompilerArguments}
    (h : (pairs.map CompilerFlag.finding).foldlM addFound {} = .ok a) (p : CompilerFlag × String)
    (rest : List (CompilerFlag × String)) :
    ((pairs ++ p :: rest).map CompilerFlag.finding).foldlM addFound {} =
      a.add p.1 (.text p.2) >>= (rest.map CompilerFlag.finding).foldlM addFound := by
  rw [List.map_append, List.foldlM_append, h]
  rfl

/-- Flags of which no alias is empty are all taken in. -/
theorem foldlM_ofPairs {pairs : List (CompilerFlag × String)}
    (named : ∀ value ∈ valuesOf .externCrate pairs, ¬IsNameless value) :
    (pairs.map CompilerFlag.finding).foldlM addFound {} = .ok (ofPairs pairs) := by
  induction pairs using List.reverseRecOn with
  | nil => rfl
  | append_singleton pairs p ih =>
    rw [valuesOf_append, List.forall_mem_append] at named
    have last : p.1 = .externCrate → ¬IsNameless p.2 := fun flag =>
      named.2 p.2 (mem_valuesOf.2 (by simp [← flag]))
    rw [foldlM_append_cons (ih named.1), add_ofPairs pairs last]
    rfl

/-- The first alias that is empty ends it. -/
theorem foldlM_eq_emptyExtern {pairs : List (CompilerFlag × String)} {value : String}
    (first : Reached (¬IsNameless ·) (valuesOf .externCrate pairs) value)
    (nameless : IsNameless value) :
    (pairs.map CompilerFlag.finding).foldlM addFound {} =
      .error (.problem (.emptyExtern value)) := by
  obtain ⟨before, after, split, named⟩ := first
  obtain ⟨front, rest, rfl, rfl, hrest⟩ := List.filterMap_eq_append_iff.1 split
  obtain ⟨between, p, behind, rfl, silent, hp, -⟩ := List.filterMap_eq_cons_iff.1 hrest
  cases pair_eq_iff.1 hp
  have named : ∀ v ∈ valuesOf .externCrate (front ++ between), ¬IsNameless v := by
    rw [valuesOf_append, List.forall_mem_append]
    refine ⟨named, fun v hv => ?_⟩
    obtain ⟨q, hq, hv⟩ := List.mem_filterMap.1 hv
    cases (silent q hq).symm.trans hv
  rw [← List.append_assoc, foldlM_append_cons (foldlM_ofPairs named), add_eq_emptyExtern nameless]
  rfl

end CompilerArguments

/-! ### Records -/

section

variable {pairs : List (CompilerFlag × String)}

theorem isSupplied_iff {a : RequiredArgument} :
    IsSupplied pairs a ↔ ∃ value, (pairs.filterMap (supplied? a)).getLast? = some value := by
  rw [← Option.isSome_iff_exists, Option.isSome_iff_ne_none, ne_eq, List.getLast?_eq_none_iff,
    filterMap_eq_nil_iff_gives supplied?_eq_some_iff]
  simp only [IsSupplied, not_forall, not_not, exists_prop]

theorem getD_crateType_text (t : String) :
    ((some (Value.text t)).filter (·.isTruthy)).getD InvocationRecord.defaultCrateType =
      .text (if t = "" then "bin" else t) := by
  have truthy : (Value.text t).isTruthy = true ↔ t ≠ "" := by simp [Value.isTruthy]
  simp only [Option.filter_some, truthy]
  by_cases empty : t = "" <;> simp [empty, InvocationRecord.defaultCrateType]

theorem crateType_iff {last : Option String} {v : Value} :
    v = ((last.map Value.text).filter (·.isTruthy)).getD InvocationRecord.defaultCrateType ↔
      ∃ type, v = .text type ∧
        (last = some type ∧ type ≠ "" ∨ (∀ t, last = some t → t = "") ∧ type = "bin") := by
  cases last with
  | none => simp [InvocationRecord.defaultCrateType]
  | some t =>
    rw [Option.map_some, getD_crateType_text]
    by_cases empty : t = "" <;> simp [empty]

/-- The record that flags with their values tell of is made of what they say last. -/
theorem recordOf_iff {package : PackageId} {customBuild : Value} {r : InvocationRecord} :
    RecordOf package customBuild pairs r ↔ ∃ name extra dir,
      (pairs.filterMap (supplied? .crateName)).getLast? = some name ∧
      (pairs.filterMap (supplied? .extraFilename)).getLast? = some extra ∧
      (pairs.filterMap (supplied? .outDir)).getLast? = some dir ∧
      r = {
        package := package
        customBuild := customBuild
        crateName := .text name
        crateType := ((CompilerArguments.ofPairs pairs).crateType.filter (·.isTruthy)).getD
          InvocationRecord.defaultCrateType
        extraFilename := extra
        capLintsAllow := (CompilerArguments.ofPairs pairs).capLintsAllow
        outDir := Path.ofText dir
        externs := (CompilerArguments.ofPairs pairs).externs } := by
  have last {a : RequiredArgument} {value : String} :
      LastGives (Supplies a) pairs value ↔ (pairs.filterMap (supplied? a)).getLast? = some value :=
    lastGives_iff supplied?_eq_some_iff
  have type {t : String} : LastGives (fun p t => p = (CompilerFlag.crateType, t)) pairs t ↔
      (valuesOf .crateType pairs).getLast? = some t :=
    lastGives_iff pair_eq_iff
  have externs {es : List (String × String)} :
      List.Forall₂ (fun value e => Assigns value e.1 e.2) (valuesOf .externCrate pairs) es ↔
        es = (valuesOf .externCrate pairs).map cutAtEquals := by
    simp only [← cutAtEquals_eq_iff]
    rw [eq_comm, ← List.forall₂_eq_eq_eq, List.forall₂_map_left_iff]
  constructor
  · rintro ⟨rfl, rfl, ⟨name, hname, h₁⟩, htype, hextra, silent, ⟨dir, hdir, h₂⟩, hexterns⟩
    simp only [type] at htype
    refine ⟨name, r.extraFilename, dir, last.1 hname, last.1 hextra, last.1 hdir, ?_⟩
    have h₃ := crateType_iff.2 htype
    have h₄ := externs.1 hexterns
    have h₅ : r.capLintsAllow = decide ("allow" ∈ valuesOf .capLints pairs) := by
      rw [Bool.eq_iff_iff, silent, decide_eq_true_eq, mem_valuesOf]
    cases r
    cases h₁
    cases h₂
    cases h₃
    cases h₄
    cases h₅
    rfl
  · rintro ⟨name, extra, dir, hname, hextra, hdir, rfl⟩
    refine ⟨rfl, rfl, ⟨name, last.2 hname, rfl⟩, ?_, last.2 hextra, ?_, ⟨dir, last.2 hdir, rfl⟩,
      externs.2 rfl⟩
    · simp only [type]
      exact crateType_iff.1 rfl
    · rw [← mem_valuesOf]
      exact decide_eq_true_iff

theorem exists_recordOf {package : PackageId} {customBuild : Value}
    (supplied : ∀ a ∈ requiredArguments, IsSupplied pairs a) :
    ∃ r, RecordOf package customBuild pairs r := by
  obtain ⟨name, hname⟩ := isSupplied_iff.1 (supplied .crateName (by simp [requiredArguments]))
  obtain ⟨extra, hextra⟩ :=
    isSupplied_iff.1 (supplied .extraFilename (by simp [requiredArguments]))
  obtain ⟨dir, hdir⟩ := isSupplied_iff.1 (supplied .outDir (by simp [requiredArguments]))
  exact ⟨_, recordOf_iff.2 ⟨name, extra, dir, hname, hextra, hdir, rfl⟩⟩

end

/-- There is a first empty alias, or else a first argument that is missing, or else nothing is. -/
theorem pairs_cases (pairs : List (CompilerFlag × String)) :
    (∃ value, Reached (¬IsNameless ·) (valuesOf .externCrate pairs) value ∧ IsNameless value) ∨
      (∀ value ∈ valuesOf .externCrate pairs, ¬IsNameless value) ∧
        ((∃ a, Reached (IsSupplied pairs) requiredArguments a ∧ ¬IsSupplied pairs a) ∨
          ∀ a ∈ requiredArguments, IsSupplied pairs a) := by
  by_cases named : ∀ value ∈ valuesOf .externCrate pairs, ¬IsNameless value
  · by_cases supplied : ∀ a ∈ requiredArguments, IsSupplied pairs a
    · exact .inr ⟨named, .inr supplied⟩
    · simp only [not_forall, exists_prop] at supplied
      exact .inr ⟨named, .inl (exists_reached_iff.2 supplied)⟩
  · simp only [not_forall, exists_prop] at named
    obtain ⟨value, reached, nameless⟩ := exists_reached_iff.2 named
    exact .inl ⟨value, reached, not_not.1 nameless⟩

namespace InvocationRecord

variable {args : List String} {parts : List ArgumentPart} {waiting : Option CompilerFlag}
  (apart : ComesApart args parts waiting) {package : PackageId} {customBuild : Value}
include apart

theorem ofList_ofPairs
    (named : ∀ value ∈ valuesOf .externCrate (ArgumentPart.pairs parts), ¬IsNameless value) :
    CompilerArguments.ofList (args.map .text) = .ok (.ofPairs (ArgumentPart.pairs parts)) := by
  rw [CompilerArguments.ofList, apart.scan_eq, CompilerArguments.foldlM_ofPairs named]

/-- Where no alias is empty, arguments give exactly the record that their flags tell of. -/
theorem ofArguments_eq_ok_iff
    (named : ∀ value ∈ valuesOf .externCrate (ArgumentPart.pairs parts), ¬IsNameless value)
    {r : InvocationRecord} :
    ofArguments package (args.map .text) customBuild = .ok r ↔
      RecordOf package customBuild (ArgumentPart.pairs parts) r := by
  rw [recordOf_iff]
  unfold ofArguments
  simp only [ofList_ofPairs apart named, bind_eq_ok, requireArgument_eq_ok, pure_eq_ok]
  constructor
  · rintro ⟨_, h, _, crateName, extra, hextra, _, outDir, _, text, rfl⟩
    cases h
    obtain ⟨name, hname, rfl⟩ := Option.map_eq_some_iff.1 crateName
    obtain ⟨dir, hdir, rfl⟩ := Option.map_eq_some_iff.1 outDir
    cases text
    exact ⟨name, extra, _, hname, hextra, hdir, rfl⟩
  · rintro ⟨name, extra, dir, hname, hextra, hdir, rfl⟩
    exact ⟨_, rfl, _, congrArg (Option.map Value.text) hname, extra, hextra, _,
      congrArg (Option.map Value.text) hdir, dir, rfl, rfl⟩

theorem ofArguments_eq_emptyExtern {value : String}
    (first : Reached (¬IsNameless ·) (valuesOf .externCrate (ArgumentPart.pairs parts)) value)
    (nameless : IsNameless value) :
    ofArguments package (args.map .text) customBuild =
      .error (.problem (.emptyExtern value)) := by
  rw [ofArguments, CompilerArguments.ofList, apart.scan_eq,
    CompilerArguments.foldlM_eq_emptyExtern first nameless]
  rfl

theorem named_of_ofArguments {r : InvocationRecord}
    (h : ofArguments package (args.map .text) customBuild = .ok r) :
    ∀ value ∈ valuesOf .externCrate (ArgumentPart.pairs parts), ¬IsNameless value := by
  rcases pairs_cases (ArgumentPart.pairs parts) with ⟨value, reached, nameless⟩ | ⟨named, -⟩
  · cases (ofArguments_eq_emptyExtern apart reached nameless).symm.trans h
  · exact named

theorem ofArguments_eq_missing
    (named : ∀ value ∈ valuesOf .externCrate (ArgumentPart.pairs parts), ¬IsNameless value)
    {a : RequiredArgument}
    (first : Reached (IsSupplied (ArgumentPart.pairs parts)) requiredArguments a)
    (missing : ¬IsSupplied (ArgumentPart.pairs parts) a) :
    ofArguments package (args.map .text) customBuild =
      .error (.problem (.missingArgument a (some package.text))) := by
  have nothing {b : RequiredArgument} (h : ¬IsSupplied (ArgumentPart.pairs parts) b) :
      ((ArgumentPart.pairs parts).filterMap (supplied? b)).getLast? = none :=
    Option.eq_none_iff_forall_ne_some.2 fun value hv => h (isSupplied_iff.2 ⟨value, hv⟩)
  rw [ofArguments, ofList_ofPairs apart named]
  simp only [requiredArguments, reached_cons, not_reached_nil, and_false, or_false] at first
  rcases first with rfl | ⟨name, rfl | ⟨extra, rfl⟩⟩
  · simp [requireArgument, CompilerArguments.ofPairs, nothing missing, bind, Except.bind]
  · obtain ⟨name, hname⟩ := isSupplied_iff.1 name
    simp [requireArgument, CompilerArguments.ofPairs, hname, nothing missing, bind, Except.bind]
  · obtain ⟨name, hname⟩ := isSupplied_iff.1 name
    obtain ⟨extra, hextra⟩ := isSupplied_iff.1 extra
    simp [requireArgument, CompilerArguments.ofPairs, hname, hextra, nothing missing, bind,
      Except.bind]

theorem exists_ofArguments
    (named : ∀ value ∈ valuesOf .externCrate (ArgumentPart.pairs parts), ¬IsNameless value)
    (supplied : ∀ a ∈ requiredArguments, IsSupplied (ArgumentPart.pairs parts) a) :
    ∃ r, ofArguments package (args.map .text) customBuild = .ok r ∧
      RecordOf package customBuild (ArgumentPart.pairs parts) r := by
  obtain ⟨r, hr⟩ := exists_recordOf supplied
  exact ⟨r, (ofArguments_eq_ok_iff apart named).2 hr, hr⟩

/-- The flags of an argument list with their values explain what becomes of it. -/
theorem explains_ofPairs :
    Explains package customBuild (ArgumentPart.pairs parts)
      (ofArguments package (args.map .text) customBuild) := by
  refine ⟨fun value => ⟨fun h => ?_, fun h => ofArguments_eq_emptyExtern apart h.1 h.2⟩,
    fun a => ⟨fun h => ?_, fun h => ofArguments_eq_missing apart h.1 h.2.1 h.2.2⟩,
    exists_ofArguments apart⟩
  -- Whichever of the three situations is at hand, it gives its own outcome and no other.
  · rcases pairs_cases (ArgumentPart.pairs parts) with
      ⟨first, reached, nameless⟩ | ⟨named, ⟨b, reached, missing⟩ | supplied⟩
    · cases (ofArguments_eq_emptyExtern apart reached nameless).symm.trans h
      exact ⟨reached, nameless⟩
    · cases (ofArguments_eq_missing apart named reached missing).symm.trans h
    · obtain ⟨r, hr, -⟩ := exists_ofArguments apart named supplied
      cases hr.symm.trans h
  · rcases pairs_cases (ArgumentPart.pairs parts) with
      ⟨first, reached, nameless⟩ | ⟨named, ⟨b, reached, missing⟩ | supplied⟩
    · cases (ofArguments_eq_emptyExtern apart reached nameless).symm.trans h
    · cases (ofArguments_eq_missing apart named reached missing).symm.trans h
      exact ⟨named, reached, missing⟩
    · obtain ⟨r, hr, -⟩ := exists_ofArguments apart named supplied
      cases hr.symm.trans h

end InvocationRecord

/-- Every argument list comes apart in one way, and the flags found in it with their values
explain which error it gives or which record. -/
theorem explains_ofArguments (package : PackageId) (args : List String) (customBuild : Value) :
    ∃ parts waiting,
      (∀ parts' waiting', ComesApart args parts' waiting' ↔ parts' = parts ∧ waiting' = waiting) ∧
        Explains package customBuild (ArgumentPart.pairs parts)
          (InvocationRecord.ofArguments package (args.map .text) customBuild) := by
  obtain ⟨parts, waiting, only⟩ := existsUnique_comesApart args
  exact ⟨parts, waiting, only, InvocationRecord.explains_ofPairs ((only _ _).2 ⟨rfl, rfl⟩)⟩

end UnusedDeps
