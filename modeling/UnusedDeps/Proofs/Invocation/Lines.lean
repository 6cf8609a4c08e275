import UnusedDeps.Proofs.Invocation.Log
import UnusedDeps.Proofs.Spool.Record

/-!
# Logs line by line

A log is read one line at a time, blank lines apart, and its first line that gives
no unit decides how the reading ends. A line that lacks a field, or that is no JSON
at all, is refused with its number. There are lines, though, that the reader takes
without a unit's fields being of the right kind, and lines that end the run without
a word: numbers and nestings beyond the limits of the reader, and a source that is
no text. A log is decoded or refused as it should be exactly when no such line comes
first. Main statement: `decodes_ofLog_iff`.
-/

namespace UnusedDeps

/-- What a step for each element of a list ends with is the end of one of the steps. -/
theorem exists_of_mapM_eq_error {α β ε : Type} {f : α → Except ε β} {xs : List α} {e : ε}
    (h : xs.mapM f = .error e) : ∃ x ∈ xs, f x = .error e := by
  induction xs with
  | nil => cases h
  | cons x xs ih =>
    rw [List.mapM_cons, bind_eq_error] at h
    rcases h with h | ⟨y, -, h⟩
    · exact ⟨x, List.mem_cons_self, h⟩
    · rcases bind_eq_error.1 h with h | ⟨ys, -, h⟩
      · obtain ⟨x', hx', h⟩ := ih h
        exact ⟨x', List.mem_cons_of_mem x hx', h⟩
      · cases h

/-! ### What stands on a line -/

namespace Value

/-- Whether a value is the table of a unit: an identity of texts, and a list of arguments, whose
items stand for their texts. -/
structure IsUnitTable (v : Value) (u : CompileUnit) : Prop where
  package : ∃ p, v.field? "package_id" = some p ∧ p.field? "name" = some u.package.name ∧
    p.field? "version" = some u.package.version ∧ p.field? "source" = some u.package.source
  textual : u.package.IsTextual
  args : ∃ items, v.field? "args" = some (.list items) ∧
    u.args = items.map fun item => .text item.plainText
  customBuild : u.customBuild = CompileUnit.truthOr false v "custom_build"
  isLocal : ∃ b, u.package.isLocal? = some b ∧ u.isLocal = CompileUnit.truthOr b v "is_local"

/-- Whether a value has all fields that are read from a line, of whatever kind. -/
structure HasUnitFields (v : Value) : Prop where
  package : ∃ p, v.field? "package_id" = some p ∧ (∃ name, p.field? "name" = some name) ∧
    (∃ version, p.field? "version" = some version) ∧ ∃ source, p.field? "source" = some source
  args : ∃ a items, v.field? "args" = some a ∧ a.elements? = some items

end Value

namespace CompileUnit

/-- Whether a unit stands on a line as it should. -/
def Holds (line : String) (u : CompileUnit) : Prop :=
  ∃ v, Json.document line = .ok v ∧ v.IsUnitTable u

/-- Whether a line is no JSON or lacks a field that is read from it. -/
def IsIncomplete (line : String) : Prop :=
  Json.document line = .error .notJson ∨ ∃ v, Json.document line = .ok v ∧ ¬v.HasUnitFields

theorem packageIn_eq_ok {v : Value} {id : PackageId} :
    packageIn v = .ok id ↔ ∃ p, v.field? "package_id" = some p ∧ p.field? "name" = some id.name ∧
      p.field? "version" = some id.version ∧ p.field? "source" = some id.source := by
  unfold packageIn InvocationRecord.packageOf
  simp only [bind_eq_ok, InvocationRecord.field_eq_ok, pure_eq_ok]
  constructor
  · rintro ⟨p, hp, name, hname, version, hversion, source, hsource, rfl⟩
    exact ⟨p, hp, hname, hversion, hsource⟩
  · rintro ⟨p, hp, hname, hversion, hsource⟩
    exact ⟨p, hp, _, hname, _, hversion, _, hsource, rfl⟩

theorem argsIn_eq_ok {v : Value} {args : List Value} :
    argsIn v = .ok args ↔ ∃ a items, v.field? "args" = some a ∧ a.elements? = some items ∧
      args = items.map fun item => .text item.plainText := by
  unfold argsIn textsOf
  simp only [bind_eq_ok, InvocationRecord.field_eq_ok]
  constructor
  · rintro ⟨a, ha, h⟩
    cases hitems : a.elements? with
    | none =>
      rw [hitems] at h
      cases h
    | some items =>
      rw [hitems] at h
      exact ⟨a, items, ha, hitems, (Except.ok.inj h).symm⟩
  · rintro ⟨a, items, ha, hitems, rfl⟩
    exact ⟨a, ha, by rw [hitems]⟩

theorem hasUnitFields_iff {v : Value} :
    v.HasUnitFields ↔ (∃ id, packageIn v = .ok id) ∧ ∃ args, argsIn v = .ok args := by
  constructor
  · rintro ⟨⟨p, hp, ⟨name, hname⟩, ⟨version, hversion⟩, ⟨source, hsource⟩⟩, a, items, ha, hitems⟩
    exact ⟨⟨⟨name, version, source⟩, packageIn_eq_ok.2 ⟨p, hp, hname, hversion, hsource⟩⟩,
      ⟨_, argsIn_eq_ok.2 ⟨a, items, ha, hitems, rfl⟩⟩⟩
  · rintro ⟨⟨id, hid⟩, args, hargs⟩
    obtain ⟨p, hp, hname, hversion, hsource⟩ := packageIn_eq_ok.1 hid
    obtain ⟨a, items, ha, hitems, -⟩ := argsIn_eq_ok.1 hargs
    exact ⟨⟨p, hp, ⟨_, hname⟩, ⟨_, hversion⟩, ⟨_, hsource⟩⟩, a, items, ha, hitems⟩

variable {path : Path} {n : Nat} {s : String} {u : CompileUnit}

/-- A unit that stands on a line is read from it. -/
theorem ofLine_of_holds (h : Holds s u) (path : Path) (n : Nat) : ofLine path n s = .ok u := by
  obtain ⟨v, document, package, textual, ⟨items, hitems, hargs⟩, customBuild, b, place, isLocal⟩ :=
    h
  have read : argsIn v = .ok u.args := argsIn_eq_ok.2 ⟨_, items, hitems, rfl, hargs⟩
  refine ofLine_eq_ok.2
    ⟨v, u.package, u.args, b, document, packageIn_eq_ok.2 package, read, place, ?_⟩
  rw [← customBuild, ← isLocal]

/-- What writes a unit holds it as it should. -/
theorem holds_of_writtenBy {u : LoggedUnit} {v : Value} (h : u.WrittenBy v)
    (document : Json.document s = .ok v) : Holds s u.unit := by
  obtain ⟨b, placed⟩ : ∃ b, u.package.isLocal? = some b := ⟨_, rfl⟩
  have custom : truthOr false v "custom_build" = .bool u.customBuild :=
    truthOr_of_bool (h.customBuild.imp id (And.imp id Eq.symm))
  have here : truthOr b v "is_local" = .bool u.isLocal :=
    truthOr_of_bool (h.isLocal.imp id (And.imp id fun h => Option.some.inj (placed.symm.trans h)))
  have texts : u.args.map Value.text =
      (u.args.map Value.text).map fun item => .text item.plainText := by
    rw [List.map_map]
    rfl
  exact ⟨v, document, h.package, ⟨⟨_, rfl⟩, ⟨_, rfl⟩, ⟨_, rfl⟩⟩, ⟨_, h.args, texts⟩, custom.symm, b,
    placed, here.symm⟩

theorem ofLine_document {v : Value} (document : Json.document s = .ok v) (path : Path) (n : Nat) :
    ofLine path n s = ofValue path n v := by
  rw [ofLine, valueOfJson_eq_ok.2 document]
  rfl

/-- An incomplete line is refused with its number. -/
theorem ofLine_of_isIncomplete (h : IsIncomplete s) (path : Path) (n : Nat) :
    ∃ c, ofLine path n s = .error (.problem (.malformedLog path n c)) := by
  rcases h with notJson | ⟨v, document, lacking⟩
  · exact ⟨.notJson, ofLine_notJson notJson path n⟩
  · rw [ofLine_document document, ofValue]
    rw [hasUnitFields_iff, not_and_or] at lacking
    cases hid : packageIn v with
    | error c =>
      have stopped : atLine path n (packageIn v) = .error (.problem (.malformedLog path n c)) := by
        rw [hid]
        rfl
      exact ⟨c, bind_eq_error.2 (.inl stopped)⟩
    | ok id =>
      have read : atLine path n (packageIn v) = .ok id := atLine_eq_ok.2 hid
      cases hargs : argsIn v with
      | error c =>
        have stopped : atLine path n (argsIn v) = .error (.problem (.malformedLog path n c)) := by
          rw [hargs]
          rfl
        exact ⟨c, bind_eq_error.2 (.inr ⟨id, read, bind_eq_error.2 (.inl stopped)⟩)⟩
      | ok args => exact (lacking.elim (· ⟨id, hid⟩) (· ⟨args, hargs⟩)).elim

/-- Any other line gives a unit or ends the run without a word. -/
theorem ofLine_of_not_isIncomplete (h : ¬IsIncomplete s) (path : Path) (n : Nat) :
    (∃ u, ofLine path n s = .ok u) ∨
      ∃ f, (f = .wrongType ∨ f = .badValue ∨ f = .tooDeep) ∧ ofLine path n s = .error f := by
  unfold IsIncomplete at h
  rw [not_or] at h
  cases document : Json.document s with
  | error e =>
    have ended : ofLine path n s =
        .error (.ofJson (.problem (.malformedLog path n .notJson)) e) := by
      rw [ofLine, valueOfJson, document]
      rfl
    cases e with
    | notJson => exact absurd document h.1
    | hugeInteger => exact .inr ⟨.badValue, .inr (.inl rfl), ended⟩
    | tooDeep => exact .inr ⟨.tooDeep, .inr (.inr rfl), ended⟩
  | ok v =>
    have complete : v.HasUnitFields := by
      by_contra lacking
      exact h.2 ⟨v, document, lacking⟩
    obtain ⟨⟨id, hid⟩, args, hargs⟩ := hasUnitFields_iff.1 complete
    cases place : id.isLocal? with
    | some b => exact .inl ⟨_, ofLine_eq_ok.2 ⟨v, id, args, b, document, hid, hargs, place, rfl⟩⟩
    | none =>
      refine .inr ⟨.wrongType, .inl rfl, ?_⟩
      rw [ofLine_document document, ofValue]
      refine bind_eq_error.2 (.inr ⟨id, atLine_eq_ok.2 hid, bind_eq_error.2 (.inr ⟨args, ?_, ?_⟩)⟩)
      · exact atLine_eq_ok.2 hargs
      · rw [place]
        rfl

/-- A line that is refused in words is incomplete, and its own number is told. -/
theorem isIncomplete_of_ofLine {line : Nat} {c : Complaint}
    (h : ofLine path n s = .error (.problem (.malformedLog path line c))) :
    IsIncomplete s ∧ line = n := by
  by_cases lacking : IsIncomplete s
  · obtain ⟨c', told⟩ := ofLine_of_isIncomplete lacking path n
    cases h.symm.trans told
    exact ⟨lacking, rfl⟩
  · rcases ofLine_of_not_isIncomplete lacking path n with ⟨u, read⟩ | ⟨f, silent, ended⟩
    · cases h.symm.trans read
    · cases h.symm.trans ended
      rcases silent with e | e | e <;> cases e

/-! ### The lines of a log -/

/-- The lines of a text that are not blank, with their numbers. -/
def givenLines (n : Nat) (ss : List String) : List (String × Nat) :=
  (ss.zipIdx n).filter fun l => !(Text.strip l.1).isEmpty

theorem ofLines_eq_mapM (path : Path) (n : Nat) (ss : List String) :
    ofLines path n ss = (givenLines n ss).mapM fun l => ofLine path l.2 l.1 := by
  induction ss generalizing n with
  | nil => rfl
  | cons s ss ih =>
    rw [ofLines, givenLines, List.zipIdx_cons, List.filter_cons]
    cases (Text.strip s).isEmpty with
    | true => exact ih (n + 1)
    | false =>
      simp only [Bool.false_eq_true, if_false, Bool.not_false, if_true, List.mapM_cons]
      rw [ih (n + 1)]
      rfl

theorem nodup_givenLines (n : Nat) (ss : List String) : ((givenLines n ss).map (·.2)).Nodup := by
  have numbers : ((ss.zipIdx n).map (·.2)).Nodup := by
    rw [List.zipIdx_map_snd]
    exact List.nodup_range'
  exact numbers.sublist (List.filter_sublist.map _)

/-- Whether every line holds a unit as it should, and these units were read in their order. -/
def IsDecoded (ls : List (String × Nat)) (x : Except Fault (List CompileUnit)) : Prop :=
  ∃ units, x = .ok units ∧ List.Forall₂ (fun l u => Holds l.1 u) ls units

/-- Whether the number of the first line that does not hold a unit as it should was told. -/
def IsRefused (path : Path) (ls : List (String × Nat)) (x : Except Fault (List CompileUnit)) :
    Prop :=
  ∃ l c, Reached (fun m => ∃ u, Holds m.1 u) ls l ∧ (¬∃ u, Holds l.1 u) ∧
    x = .error (.problem (.malformedLog path l.2 c))

section

variable {l : String × Nat} {ls : List (String × Nat)} (hu : Holds l.1 u)

include hu

theorem mapM_cons_of_holds : (l :: ls).mapM (fun l => ofLine path l.2 l.1) =
    (ls.mapM fun l => ofLine path l.2 l.1) >>= fun us => pure (u :: us) := by
  rw [List.mapM_cons, ofLine_of_holds hu]
  rfl

theorem isDecoded_cons :
    IsDecoded (l :: ls) ((l :: ls).mapM fun l => ofLine path l.2 l.1) ↔
      IsDecoded ls (ls.mapM fun l => ofLine path l.2 l.1) := by
  rw [mapM_cons_of_holds hu]
  constructor
  · rintro ⟨units, read, all⟩
    obtain ⟨us, rest, same⟩ := bind_eq_ok.1 read
    cases pure_eq_ok.1 same
    cases all with
    | cons head tail => exact ⟨us, rest, tail⟩
  · rintro ⟨us, rest, all⟩
    exact ⟨u :: us, bind_eq_ok.2 ⟨us, rest, rfl⟩, .cons hu all⟩

theorem isRefused_cons :
    IsRefused path (l :: ls) ((l :: ls).mapM fun l => ofLine path l.2 l.1) ↔
      IsRefused path ls (ls.mapM fun l => ofLine path l.2 l.1) := by
  rw [mapM_cons_of_holds hu]
  constructor
  · rintro ⟨m, c, reached, lacking, ended⟩
    rcases reached_cons.1 reached with rfl | ⟨-, reached⟩
    · exact absurd ⟨u, hu⟩ lacking
    · rcases bind_eq_error.1 ended with ended | ⟨us, -, ended⟩
      · exact ⟨m, c, reached, lacking, ended⟩
      · cases ended
  · rintro ⟨m, c, reached, lacking, ended⟩
    exact ⟨m, c, reached_cons.2 (.inr ⟨⟨u, hu⟩, reached⟩), lacking, bind_eq_error.2 (.inl ended)⟩

end

/-- Lines are decoded or refused as they should be when the first one that holds no unit is
incomplete. -/
theorem isDecoded_or_isRefused_iff {ls : List (String × Nat)} (numbers : (ls.map (·.2)).Nodup) :
    IsDecoded ls (ls.mapM fun l => ofLine path l.2 l.1) ∨
        IsRefused path ls (ls.mapM fun l => ofLine path l.2 l.1) ↔
      ∀ l, Reached (fun m => ∃ u, Holds m.1 u) ls l → (∃ u, Holds l.1 u) ∨ IsIncomplete l.1 := by
  induction ls with
  | nil =>
    have nothing : ([] : List (String × Nat)).mapM (fun l => ofLine path l.2 l.1) = .ok [] := rfl
    refine iff_of_true (.inl ⟨[], nothing, .nil⟩) fun l hl => absurd hl (not_reached_nil _ l)
  | cons l ls ih =>
    rw [List.map_cons, List.nodup_cons] at numbers
    rw [forall_reached_cons]
    by_cases held : ∃ u, Holds l.1 u
    · -- A line that holds a unit is read, and leaves the matter to the others.
      obtain ⟨u, hu⟩ := held
      rw [and_iff_right (.inl ⟨u, hu⟩), forall_prop_of_true ⟨u, hu⟩, ← ih numbers.2]
      exact or_congr (isDecoded_cons hu) (isRefused_cons hu)
    · -- Any other line has to be refused itself.
      have first (x : Except Fault (List CompileUnit)) :
          IsRefused path (l :: ls) x ↔ ∃ c, x = .error (.problem (.malformedLog path l.2 c)) := by
        constructor
        · rintro ⟨m, c, reached, -, ended⟩
          rcases reached_cons.1 reached with rfl | ⟨passed, -⟩
          · exact ⟨c, ended⟩
          · exact absurd passed held
        · rintro ⟨c, ended⟩
          exact ⟨l, c, reached_cons.2 (.inl rfl), held, ended⟩
      have undecoded (x : Except Fault (List CompileUnit)) : ¬IsDecoded (l :: ls) x := by
        rintro ⟨units, -, all⟩
        cases all with
        | cons head tail => exact held ⟨_, head⟩
      rw [or_iff_right (undecoded _), first, or_iff_right held,
        and_iff_left fun h => absurd h held]
      constructor
      · rintro ⟨c, ended⟩
        obtain ⟨l', hl', told⟩ := exists_of_mapM_eq_error ended
        obtain ⟨lacking, number⟩ := isIncomplete_of_ofLine told
        rcases List.mem_cons.1 hl' with rfl | later
        · exact lacking
        · exact absurd (number ▸ List.mem_map_of_mem later) numbers.1
      · intro lacking
        obtain ⟨c, told⟩ := ofLine_of_isIncomplete lacking path l.2
        refine ⟨c, ?_⟩
        rw [List.mapM_cons, bind_eq_error]
        exact .inl told

/-- A log is decoded line by line, or refused at its first line that holds no unit as it should,
exactly when that line is no JSON or lacks a field. -/
theorem decodes_ofLog_iff {files : FileTree} {text : String}
    (readable : files.readText path = .ok text) :
    IsDecoded (givenLines 1 (Text.lines text)) (ofLog files path) ∨
        IsRefused path (givenLines 1 (Text.lines text)) (ofLog files path) ↔
      ∀ l, Reached (fun m => ∃ u, Holds m.1 u) (givenLines 1 (Text.lines text)) l →
        (∃ u, Holds l.1 u) ∨ IsIncomplete l.1 := by
  have read : ofLog files path =
      (givenLines 1 (Text.lines text)).mapM fun l => ofLine path l.2 l.1 := by
    rw [ofLog, FileTree.readOr_eq_ok.2 readable]
    exact ofLines_eq_mapM path 1 (Text.lines text)
  rw [read]
  exact isDecoded_or_isRefused_iff (nodup_givenLines 1 _)

/-! ### Two logs -/

/-- A unit, a blank line, and a table without fields. -/
def fieldlessLog : List (List Char) := [appUnit.line, [], ['\x7b', '\x7d']]

def fieldlessText : String := String.ofList (List.intercalate ['\n'] fieldlessLog)

theorem isIncomplete_fieldless : IsIncomplete "\x7b\x7d" := by
  have document : Json.document "\x7b\x7d" = .ok (.table []) := rfl
  refine .inr ⟨.table [], document, fun fields => ?_⟩
  obtain ⟨p, hp, -⟩ := fields.package
  cases hp

/-- No character of the line is taken for a mark or ends it. -/
theorem plain_appUnit :
    ∀ c ∈ appUnit.line, Text.isLow c = true ∧ Text.isLineEnd c = false := by
  have all : (appUnit.line.all fun c => Text.isLow c && !Text.isLineEnd c) = true := by
    decide +kernel
  intro c hc
  simpa using List.all_eq_true.1 all c hc

theorem holds_appUnit : Holds (String.ofList appUnit.line) appUnit.unit := by
  have document := Json.document_spelled (LoggedUnit.spells_line hasPlainTexts_appUnit) (by decide)
  rw [Text.kept_of_isLow fun c hc => (plain_appUnit c hc).1] at document
  exact holds_of_writtenBy (LoggedUnit.writtenBy_fields rfl rfl) document

theorem readText_fieldlessLog : (logTree fieldlessLog).readText logPath = .ok fieldlessText := by
  have plain : ∀ l ∈ fieldlessLog, ∀ c ∈ l, Text.isLow c = true ∧ Text.isLineEnd c = false := by
    simp only [fieldlessLog, List.forall_mem_cons]
    exact ⟨plain_appUnit, List.forall_mem_nil _, ⟨⟨rfl, rfl⟩, ⟨rfl, rfl⟩, List.forall_mem_nil _⟩,
      List.forall_mem_nil _⟩
  have kept : fieldlessLog.map Text.kept = fieldlessLog := by
    refine (List.map_congr_left fun l hl => ?_).trans (List.map_id' fieldlessLog)
    exact Text.kept_of_isLow fun c hc => (plain l hl c hc).1
  have noReturn : ∀ l ∈ fieldlessLog.map Text.kept, '\r' ∉ l := by
    rw [kept]
    intro l hl hc
    exact absurd (plain l hl _ hc).2 (by decide)
  have readable := readText_of_holdsLines (holdsLines_logTree fieldlessLog) noReturn
  rwa [kept] at readable

theorem givenLines_fieldlessText : givenLines 1 (Text.lines fieldlessText) =
    [(String.ofList appUnit.line, 1), ("\x7b\x7d", 3)] := by
  have noReturn : '\r' ∉ appUnit.line := fun hc => absurd (plain_appUnit _ hc).2 (by decide)
  have lines : Text.lines fieldlessText = [String.ofList appUnit.line, "", "\x7b\x7d"] := by
    have joined : List.intercalate ['\n'] fieldlessLog =
        appUnit.line ++ '\n' :: ['\n', '\x7b', '\x7d'] := by
      rw [fieldlessLog, List.intercalate_cons_cons, List.append_assoc]
      rfl
    rw [Text.lines, fieldlessText, String.toList_ofList, joined,
      Text.linesOf_append_lineFeed noReturn,
      Text.pieces_of_forall_not fun c hc => (plain_appUnit c hc).2]
    rfl
  have filled : Text.isFilled appUnit.line = true :=
    Text.isFilled_of_mem List.mem_cons_self (by decide)
  have given : (!(Text.strip (String.ofList appUnit.line)).isEmpty) = true := by
    rw [Text.strip_isEmpty, String.toList_ofList, filled]
    rfl
  rw [lines, givenLines, List.zipIdx_cons, List.filter_cons, if_pos given]
  rfl

/-- The third line is refused, and the blank one counts. -/
theorem decodes_ofLog_iff_fieldless :
    (logTree fieldlessLog).readText logPath = .ok fieldlessText ∧
    givenLines 1 (Text.lines fieldlessText) =
      [(String.ofList appUnit.line, 1), ("\x7b\x7d", 3)] ∧
    (IsDecoded (givenLines 1 (Text.lines fieldlessText)) (ofLog (logTree fieldlessLog) logPath) ∨
      IsRefused logPath (givenLines 1 (Text.lines fieldlessText))
        (ofLog (logTree fieldlessLog) logPath)) := by
  have lines := givenLines_fieldlessText
  refine ⟨readText_fieldlessLog, lines, (decodes_ofLog_iff readText_fieldlessLog).2 ?_⟩
  rw [lines, forall_reached_cons, forall_reached_cons]
  refine ⟨.inl ⟨_, holds_appUnit⟩, fun _ => ⟨.inr isIncomplete_fieldless, fun _ l hl => ?_⟩⟩
  exact absurd hl (not_reached_nil _ l)

/-- A unit of a package whose source is null. -/
def sourceless : Value :=
  .table [("package_id", .table [("name", .text "app"), ("version", .text "1.0.0"),
    ("source", .null)]), ("args", .list [])]

def sourcelessText : String := Json.print .ascii sourceless

theorem isFaithful_sourceless : sourceless.IsFaithful 2 := by
  have shown {s : String} (h : Text.IsShown s) (depth : Nat) : (Value.text s).IsFaithful depth :=
    .text depth h.isFaithful
  have package : (Value.table [("name", .text "app"), ("version", .text "1.0.0"),
      ("source", .null)]).IsFaithful 1 := by
    refine Value.isFaithful_table ["name", "version", "source"] rfl (by decide) (by decide) ?_
    simp only [List.map_cons, List.map_nil, List.forall_mem_cons]
    exact ⟨shown (by decide) 0, shown (by decide) 0, .null 0, List.forall_mem_nil _⟩
  refine Value.isFaithful_table ["package_id", "args"] rfl (by decide) (by decide) ?_
  simp only [List.map_cons, List.map_nil, List.forall_mem_cons]
  exact ⟨package, .list (List.forall_mem_nil _), List.forall_mem_nil _⟩

theorem document_sourceless : Json.document sourcelessText = .ok sourceless :=
  Json.document_print .ascii isFaithful_sourceless (by decide)

theorem isFilled_sourceless : Text.isFilled sourcelessText.toList = true := by
  have opened : '\x7b' ∈ sourcelessText.toList := by
    rw [sourcelessText, Json.print, String.toList_ofList, sourceless, Json.written,
      List.cons_append]
    exact List.mem_cons_self
  exact Text.isFilled_of_mem opened (by decide)

/-- The text of a log that is one line. -/
theorem readText_logTree {s : String} (shown : Text.IsShown s) :
    (logTree [s.toList]).readText logPath = .ok s := by
  have kept : Text.kept s.toList = s.toList :=
    Text.kept_of_isLow fun c hc => Text.isLow_of_shown (shown c hc)
  have noReturn : ∀ l ∈ [s.toList].map Text.kept, '\r' ∉ l := by
    rw [List.map_singleton, kept, List.forall_mem_singleton]
    exact fun hc => absurd (shown _ hc) (by decide)
  have readable := readText_of_holdsLines (holdsLines_logTree [s.toList]) noReturn
  rwa [List.map_singleton, kept, List.intercalate_singleton, String.ofList_toList] at readable

theorem isLineEnd_of_shown {c : Char} (h : Text.isShownChar c = true) :
    Text.isLineEnd c = false := by
  have each : ∀ n ∈ [0x0a, 0x0b, 0x0c, 0x0d, 0x1c, 0x1d, 0x1e, 0x85, 0x2028, 0x2029],
      n < 0x20 ∨ 0x7f ≤ n := by decide
  obtain ⟨low, high⟩ := Text.isShownChar_iff.1 h
  by_contra ends
  rw [Bool.not_eq_false] at ends
  have apart := each c.toNat (List.contains_iff_mem.1 ends)
  omega

theorem givenLines_of_shown {s : String} (shown : Text.IsShown s)
    (filled : Text.isFilled s.toList = true) : givenLines 1 (Text.lines s) = [(s, 1)] := by
  have some : s.toList ≠ [] := by
    intro none
    rw [none] at filled
    cases filled
  have given : (!(Text.strip s).isEmpty) = true := by
    rw [Text.strip_isEmpty, filled]
    rfl
  rw [Text.lines, Text.linesOf_of_not some fun c hc => isLineEnd_of_shown (shown c hc),
    List.map_singleton, String.ofList_toList, givenLines, List.zipIdx_singleton, List.filter_cons,
    if_pos given]
  rfl

theorem ofLog_logTree {s : String} (shown : Text.IsShown s) {f : Fault}
    (lines : givenLines 1 (Text.lines s) = [(s, 1)]) (line : ofLine logPath 1 s = .error f) :
    ofLog (logTree [s.toList]) logPath = .error f := by
  rw [ofLog, FileTree.readOr_eq_ok.2 (readText_logTree shown)]
  show ofLines logPath 1 (Text.lines s) = _
  rw [ofLines_eq_mapM, lines, List.mapM_cons, line]
  rfl

/-- A source that is no text ends the run without a word. -/
theorem not_decodes_ofLog_sourceless :
    (logTree [sourcelessText.toList]).readText logPath = .ok sourcelessText ∧
    ofLog (logTree [sourcelessText.toList]) logPath = .error .wrongType ∧
    ¬(IsDecoded (givenLines 1 (Text.lines sourcelessText))
        (ofLog (logTree [sourcelessText.toList]) logPath) ∨
      IsRefused logPath (givenLines 1 (Text.lines sourcelessText))
        (ofLog (logTree [sourcelessText.toList]) logPath)) := by
  have shown : Text.IsShown sourcelessText := Json.isShown_print isFaithful_sourceless
  have lines := givenLines_of_shown shown isFilled_sourceless
  have line : ofLine logPath 1 sourcelessText = .error .wrongType := by
    rw [ofLine_document document_sourceless]
    rfl
  have ended := ofLog_logTree shown lines line
  refine ⟨readText_logTree shown, ended, ?_⟩
  rw [ended]
  rintro (⟨units, read, -⟩ | ⟨l, c, -, -, told⟩)
  · cases read
  · cases told

end CompileUnit

end UnusedDeps
