import UnusedDeps.Proofs.Failures.Readers
import UnusedDeps.Proofs.Json.Cut

/-!
# Logs that are read back

A log has the units of a build as JSON tables, each on a line of its own and in any
spelling, with blank lines between them. It is read back with its units in order,
unless a table holds one of the three characters that JSON leaves as they are in a
text and that end a line all the same. A log with such a table is refused. Main
statement: `ofLog_written`.
-/

namespace UnusedDeps

/-! ### Units as they are written -/

structure LoggedUnit where
  name : String
  version : String
  source : String
  args : List String
  customBuild : Bool
  isLocal : Bool

namespace LoggedUnit

def package (u : LoggedUnit) : PackageId := ⟨.text u.name, .text u.version, .text u.source⟩

def unit (u : LoggedUnit) : CompileUnit :=
  ⟨u.package, u.args.map .text, .bool u.customBuild, .bool u.isLocal⟩

/-- Whether a table writes a unit. Two fields may be left out when they hold what is assumed. -/
structure WrittenBy (u : LoggedUnit) (v : Value) : Prop where
  package : ∃ p, v.field? "package_id" = some p ∧ p.field? "name" = some (.text u.name) ∧
    p.field? "version" = some (.text u.version) ∧ p.field? "source" = some (.text u.source)
  args : v.field? "args" = some (.list (u.args.map .text))
  customBuild : v.field? "custom_build" = some (.bool u.customBuild) ∨
    v.field? "custom_build" = none ∧ u.customBuild = false
  isLocal : v.field? "is_local" = some (.bool u.isLocal) ∨
    v.field? "is_local" = none ∧ u.package.isLocal? = some u.isLocal

end LoggedUnit

/-- The lines of a log with the units on them. No line holds a line feed or a carriage return. A
table may have more fields than a unit needs, within the limits of the reader. -/
inductive LogLines : List (List Char) → List LoggedUnit → Prop
  | nil : LogLines [] []
  | blank {l : List Char} {ls : List (List Char)} {us : List LoggedUnit}
      (line : Text.IsOneLine l) (h : Text.isFilled l = false) (rest : LogLines ls us) :
      LogLines (l :: ls) us
  | unit {l : List Char} {ls : List (List Char)} {u : LoggedUnit} {us : List LoggedUnit}
      {depth : Nat} {v : Value} (line : Text.IsOneLine l) (spelled : Json.Spells depth l v)
      (shallow : depth ≤ Json.documentRules.maxDepth) (written : u.WrittenBy v)
      (rest : LogLines ls us) : LogLines (l :: ls) (u :: us)

/-- Whether a line is blank or free of the other line ends. -/
def IsWholeLine (l : List Char) : Prop :=
  Text.isFilled l = false ∨ ∀ c ∈ l, c ∉ Json.bareEnds

/-- Whether a file has given lines, written in UTF-8 and put together by line feeds. -/
structure FileTree.HoldsLines (t : FileTree) (p : Path) (ls : List (List Char)) : Prop where
  name : p.fault? = none
  bytes : ∃ bytes executable, t.lookup p = .ok (.file bytes executable) ∧
    bytes.data.toList = (List.intercalate ['\n'] ls).flatMap String.utf8EncodeChar

/-! ### One unit -/

theorem InvocationRecord.field_eq_ok {v x : Value} {name : String} :
    field v name = .ok x ↔ v.field? name = some x := by
  unfold field Value.field?
  cases v with
  | table fields => cases h : Mapping.get? fields name <;> simp [h]
  | _ => simp

namespace CompileUnit

variable {u : LoggedUnit} {v : Value}

theorem truthOr_of_bool {default b : Bool} {name : String}
    (h : v.field? name = some (.bool b) ∨ v.field? name = none ∧ default = b) :
    truthOr default v name = .bool b := by
  rcases h with h | ⟨h, rfl⟩
  · rw [truthOr, h]
    rfl
  · rw [truthOr, h]
    rfl

theorem packageIn_written (h : u.WrittenBy v) : packageIn v = .ok u.package := by
  obtain ⟨p, hp, name, version, source⟩ := h.package
  refine bind_eq_ok.2 ⟨p, InvocationRecord.field_eq_ok.2 hp, ?_⟩
  refine bind_eq_ok.2 ⟨_, InvocationRecord.field_eq_ok.2 name, ?_⟩
  refine bind_eq_ok.2 ⟨_, InvocationRecord.field_eq_ok.2 version, ?_⟩
  exact bind_eq_ok.2 ⟨_, InvocationRecord.field_eq_ok.2 source, rfl⟩

theorem argsIn_written (h : u.WrittenBy v) : argsIn v = .ok (u.args.map .text) := by
  refine bind_eq_ok.2 ⟨_, InvocationRecord.field_eq_ok.2 h.args, ?_⟩
  simp [textsOf, Value.elements?, Value.plainText]

/-- A unit is read from a document that writes it. -/
theorem ofLine_written (h : u.WrittenBy v) {s : String} (document : Json.document s = .ok v)
    (path : Path) (line : Nat) : ofLine path line s = .ok u.unit := by
  obtain ⟨isLocal, placed⟩ : ∃ b, u.package.isLocal? = some b := ⟨_, rfl⟩
  have custom : truthOr false v "custom_build" = .bool u.customBuild :=
    truthOr_of_bool (h.customBuild.imp id (And.imp id Eq.symm))
  have here : truthOr isLocal v "is_local" = .bool u.isLocal :=
    truthOr_of_bool (h.isLocal.imp id (And.imp id fun h => Option.some.inj (placed.symm.trans h)))
  refine ofLine_eq_ok.2 ⟨v, u.package, u.args.map .text, isLocal, document, packageIn_written h,
    argsIn_written h, placed, ?_⟩
  rw [custom, here]
  rfl

theorem ofLine_notJson {s : String} (h : Json.document s = .error .notJson) (path : Path)
    (line : Nat) : ofLine path line s = .error (.problem (.malformedLog path line .notJson)) := by
  rw [ofLine, valueOfJson, h]
  rfl

/-! ### Lines that are filled -/

section Lines

variable {path : Path} {n : Nat}

theorem ofLines_blank {l : List Char} (h : Text.isFilled l = false) (ss : List String) :
    ofLines path n (String.ofList l :: ss) = ofLines path (n + 1) ss := by
  have blank : (Text.strip (String.ofList l)).isEmpty = true := by
    rw [Text.strip_isEmpty, String.toList_ofList, h]
    rfl
  rw [ofLines, if_pos blank]

theorem ofLines_filled {l : List Char} (h : Text.isFilled l = true) (ss : List String) :
    ofLines path n (String.ofList l :: ss) =
      (ofLine path n (String.ofList l) >>= fun u =>
        ofLines path (n + 1) ss >>= fun us => pure (u :: us)) := by
  have given : ¬(Text.strip (String.ofList l)).isEmpty = true := by
    rw [Text.strip_isEmpty, String.toList_ofList, h]
    simp
  rw [ofLines, if_neg given]

/-- Whether a unit is read from a line, wherever the line stands. -/
def ReadsLine (path : Path) (l : List Char) (u : CompileUnit) : Prop :=
  ∀ line, ofLine path line (String.ofList l) = .ok u

/-- Blank lines count for nothing but the numbers of the others. -/
theorem ofLines_reads {ls : List (List Char)} {units : List CompileUnit}
    (h : List.Forall₂ (ReadsLine path) (ls.filter Text.isFilled) units) :
    ofLines path n (ls.map String.ofList) = .ok units := by
  induction ls generalizing n units with
  | nil =>
    cases h
    rfl
  | cons l ls ih =>
    rw [List.map_cons]
    cases filled : Text.isFilled l with
    | false =>
      rw [List.filter_cons_of_neg (by simp [filled])] at h
      rw [ofLines_blank filled, ih h]
    | true =>
      rw [List.filter_cons_of_pos filled] at h
      cases h with
      | cons first rest =>
        rw [ofLines_filled filled, first n, ih rest]
        rfl

/-- The first line that is refused is told. -/
theorem exists_ofLines_refused {ls front rest : List (List Char)} {bad : List Char}
    (filter : ls.filter Text.isFilled = front ++ bad :: rest)
    (good : ∀ l ∈ front, ∃ u, ReadsLine path l u) {fault : Nat → Fault}
    (refused : ∀ line, ofLine path line (String.ofList bad) = .error (fault line)) :
    ∃ line, ofLines path n (ls.map String.ofList) = .error (fault line) := by
  induction ls generalizing n front with
  | nil => simp at filter
  | cons l ls ih =>
    rw [List.map_cons]
    cases filled : Text.isFilled l with
    | false =>
      rw [List.filter_cons_of_neg (by simp [filled])] at filter
      rw [ofLines_blank filled]
      exact ih filter good
    | true =>
      rw [List.filter_cons_of_pos filled] at filter
      rw [ofLines_filled filled]
      cases front with
      | nil =>
        cases filter
        exact ⟨n, by rw [refused n]; rfl⟩
      | cons l' front =>
        obtain ⟨rfl, rest⟩ := List.cons.inj filter
        rw [List.forall_mem_cons] at good
        obtain ⟨⟨u, hu⟩, others⟩ := good
        obtain ⟨line, told⟩ := ih rest others
        exact ⟨line, by rw [hu n, told]; rfl⟩

end Lines

/-! ### The pieces of a line -/

theorem isFilled_of_opens {l : List Char} (h : Json.Opens l) : Text.isFilled l = true := by
  have each : Json.openings.all (fun c => !Text.isBlank c) = true := by decide
  obtain ⟨space, c, rest, rfl, -, hc⟩ := h
  have given : Text.isBlank c = false := by simpa using List.all_eq_true.1 each c hc
  exact Text.isFilled_of_mem (by simp) given

/-- The pieces of a line that are not blank. -/
def filledPieces (l : List Char) : List (List Char) :=
  (Text.pieces Text.isLineEnd (Text.kept l)).filter Text.isFilled

theorem filledPieces_blank {l : List Char} (h : Text.isFilled l = false) :
    filledPieces l = [] := by
  have blank : ∀ c ∈ l, Text.isBlank c = true := by simpa [Text.isFilled] using h
  have kept : Text.kept l = l := Text.kept_of_isLow fun c hc => Text.isLow_of_isBlank (blank c hc)
  refine List.filter_eq_nil_iff.2 fun piece hpiece filled => ?_
  obtain ⟨c, hc, given⟩ := Text.isFilled_iff.1 filled
  have mem := Text.mem_of_mem_pieces hpiece c hc
  rw [kept] at mem
  rw [blank c mem] at given
  cases given

variable {l : List Char} {depth : Nat} {v : Value}

theorem filledPieces_whole (spelled : Json.Spells depth l v) (line : Text.IsOneLine l)
    (whole : ∀ c ∈ l, c ∉ Json.bareEnds) : filledPieces l = [Text.kept l] := by
  have unended : ∀ c ∈ l, Text.isLineEnd c = false := by
    intro c hc
    by_contra ends
    rw [Bool.not_eq_false] at ends
    exact whole c hc (Json.mem_bareEnds spelled line hc ends)
  rw [filledPieces, Text.pieces_of_forall_not (Text.kept_unended unended),
    List.filter_cons_of_pos (Text.isFilled_kept (isFilled_of_opens spelled.opens)),
    List.filter_nil]

/-- A line with another line end is cut in front of the first one. -/
theorem exists_filledPieces_broken (spelled : Json.Spells depth l v) (line : Text.IsOneLine l)
    {c : Char} (hc : c ∈ l) (ends : c ∈ Json.bareEnds) :
    ∃ p d s rest, l = p ++ d :: s ∧ 0x80 ≤ d.toNat ∧ filledPieces l = Text.kept p :: rest := by
  have each : Json.bareEnds.all (fun d => 0x80 ≤ d.toNat) = true := by decide
  have found : (l.find? Text.isLineEnd).isSome = true :=
    List.find?_isSome.2 ⟨c, hc, Json.isLineEnd_of_mem_bareEnds ends⟩
  obtain ⟨d, hd⟩ := Option.isSome_iff_exists.1 found
  obtain ⟨dends, p, s, split, unended⟩ := List.find?_eq_some_iff_append.1 hd
  have dmem : d ∈ l := List.mem_of_find?_eq_some hd
  have wide : 0x80 ≤ d.toNat := by
    simpa using List.all_eq_true.1 each d (Json.mem_bareEnds spelled line dmem dends)
  have front := Text.kept_unended fun c hc => by simpa using unended c hc
  refine ⟨p, d, s, (Text.pieces Text.isLineEnd (Text.kept s)).filter Text.isFilled, split, wide, ?_⟩
  rw [filledPieces, split, Text.kept_append,
    Text.kept_cons_of_isLow (Text.isLow_of_isLineEnd dends), Text.pieces_append_cons front dends,
    List.filter_cons_of_pos (Text.isFilled_kept (isFilled_of_opens (spelled.opens.cut wide split)))]

theorem notMem_bareEnds (h : IsWholeLine l) (opens : Json.Opens l) :
    ∀ c ∈ l, c ∉ Json.bareEnds := by
  refine h.resolve_left fun blank => ?_
  rw [isFilled_of_opens opens] at blank
  cases blank

/-! ### Whole logs -/

variable {ls : List (List Char)} {us : List LoggedUnit} {path : Path}

theorem readsLine_spelled {u : LoggedUnit} (spelled : Json.Spells depth l v)
    (shallow : depth ≤ Json.documentRules.maxDepth) (written : u.WrittenBy v) :
    ReadsLine path (Text.kept l) u.unit :=
  ofLine_written written (Json.document_spelled spelled shallow) path

theorem reads_filledPieces (log : LogLines ls us) (whole : ∀ l ∈ ls, IsWholeLine l) :
    List.Forall₂ (ReadsLine path) (ls.flatMap filledPieces) (us.map LoggedUnit.unit) := by
  induction log with
  | nil => exact .nil
  | blank line h rest ih =>
    rw [List.forall_mem_cons] at whole
    rw [List.flatMap_cons, filledPieces_blank h, List.nil_append]
    exact ih whole.2
  | unit line spelled shallow written rest ih =>
    rw [List.forall_mem_cons] at whole
    rw [List.flatMap_cons, filledPieces_whole spelled line (notMem_bareEnds whole.1 spelled.opens),
      List.singleton_append, List.map_cons]
    exact .cons (readsLine_spelled spelled shallow written) (ih whole.2)

/-- In front of the first line that is broken the lines are read. -/
theorem exists_filledPieces (log : LogLines ls us) (broken : ¬∀ l ∈ ls, IsWholeLine l) :
    ∃ front bad rest, ls.flatMap filledPieces = front ++ bad :: rest ∧
      (∀ l ∈ front, ∃ u, ReadsLine path l u) ∧
      Json.document (String.ofList bad) = .error .notJson := by
  induction log with
  | nil => exact absurd (List.forall_mem_nil _) broken
  | @blank l ls us line h rest ih =>
    rw [List.forall_mem_cons, not_and] at broken
    rw [List.flatMap_cons, filledPieces_blank h, List.nil_append]
    exact ih (broken (.inl h))
  | @unit l ls u us depth v line spelled shallow written rest ih =>
    rw [List.forall_mem_cons, not_and] at broken
    by_cases here : ∀ c ∈ l, c ∉ Json.bareEnds
    · obtain ⟨front, bad, after, hpieces, good, refused⟩ := ih (broken (.inr here))
      refine ⟨Text.kept l :: front, bad, after, ?_, ?_, refused⟩
      · rw [List.flatMap_cons, filledPieces_whole spelled line here, hpieces]
        rfl
      · exact List.forall_mem_cons.2 ⟨⟨_, readsLine_spelled spelled shallow written⟩, good⟩
    · simp only [not_forall, not_not] at here
      obtain ⟨c, hc, ends⟩ := here
      obtain ⟨p, d, s, after, rfl, wide, hpieces⟩ :=
        exists_filledPieces_broken spelled line hc ends
      refine ⟨[], Text.kept p, after ++ ls.flatMap filledPieces, ?_, List.forall_mem_nil _, ?_⟩
      · rw [List.flatMap_cons, hpieces]
        rfl
      · exact Json.document_cut spelled shallow wide

theorem isOneLine_of_log (log : LogLines ls us) : ∀ l ∈ ls, Text.IsOneLine l := by
  induction log with
  | nil => exact List.forall_mem_nil _
  | blank line h rest ih => exact List.forall_mem_cons.2 ⟨line, ih⟩
  | unit line spelled shallow written rest ih => exact List.forall_mem_cons.2 ⟨line, ih⟩

/-- The text of a file of lines. -/
theorem readText_of_holdsLines {files : FileTree} (holds : files.HoldsLines path ls)
    (noReturn : ∀ l ∈ ls.map Text.kept, '\r' ∉ l) :
    files.readText path = .ok (String.ofList (List.intercalate ['\n'] (ls.map Text.kept))) := by
  obtain ⟨bytes, executable, found, content⟩ := holds.bytes
  have folded : '\r' ∉ List.intercalate ['\n'] (ls.map Text.kept) := by
    have each : ∀ l ∈ ls.map Text.kept, ∀ c ∈ l, c ≠ '\r' :=
      fun l hl c hc h => noReturn l hl (h ▸ hc)
    exact fun hc => Text.forall_mem_intercalate (by decide) each _ hc rfl
  rw [FileTree.readText, holds.name, found]
  dsimp only
  rw [FileTree.textOf?, content, Text.ofUtf8?_chars, Text.kept_intercalate (by decide),
    Option.map_some, String.toList_ofList, Text.foldNewlines_of_notMem folded]

/-- The lines of a file are read as the pieces of its lines. -/
theorem exists_ofLog {files : FileTree} (holds : files.HoldsLines path ls)
    (single : ∀ l ∈ ls, Text.IsOneLine l) :
    ∃ read : List (List Char), ofLog files path = ofLines path 1 (read.map String.ofList) ∧
      read.filter Text.isFilled = ls.flatMap filledPieces := by
  have noReturn : ∀ l ∈ ls.map Text.kept, '\r' ∉ l := by
    refine List.forall_mem_map.2 fun l hl hc => (single l hl).carriageReturn ?_
    exact Text.mem_of_mem_kept (by decide) hc
  refine ⟨Text.linesOf (List.intercalate ['\n'] (ls.map Text.kept)), ?_, ?_⟩
  · rw [ofLog, FileTree.readOr_eq_ok.2 (readText_of_holdsLines holds noReturn)]
    show ofLines path 1 (Text.lines _) = _
    rw [Text.lines, String.toList_ofList]
  · rw [Text.filter_linesOf_intercalate noReturn, List.flatMap_map, List.filter_flatMap]
    rfl

section

variable {files : FileTree} (holds : files.HoldsLines path ls) (log : LogLines ls us)

include holds log

theorem ofLog_whole (whole : ∀ l ∈ ls, IsWholeLine l) :
    ofLog files path = .ok (us.map LoggedUnit.unit) := by
  obtain ⟨read, hread, filter⟩ := exists_ofLog holds (isOneLine_of_log log)
  have reads : List.Forall₂ (ReadsLine path) (ls.flatMap filledPieces)
      (us.map LoggedUnit.unit) := reads_filledPieces log whole
  rw [← filter] at reads
  rw [hread, ofLines_reads reads]

theorem exists_ofLog_refused (broken : ¬∀ l ∈ ls, IsWholeLine l) :
    ∃ line, ofLog files path = .error (.problem (.malformedLog path line .notJson)) := by
  obtain ⟨read, hread, filter⟩ := exists_ofLog holds (isOneLine_of_log log)
  obtain ⟨front, bad, rest, pieces, good, refused⟩ := exists_filledPieces log broken
  rw [hread]
  exact exists_ofLines_refused (filter.trans pieces) good (ofLine_notJson refused path)

/-- A log comes back with its units in order when every line is whole, and is refused otherwise. -/
theorem ofLog_written :
    ((∀ l ∈ ls, IsWholeLine l) → ofLog files path = .ok (us.map LoggedUnit.unit)) ∧
    ((¬∀ l ∈ ls, IsWholeLine l) →
      ∃ line, ofLog files path = .error (.problem (.malformedLog path line .notJson))) :=
  ⟨ofLog_whole holds log, exists_ofLog_refused holds log⟩

end

end CompileUnit

/-! ### Two logs -/

namespace LoggedUnit

/-- Whether a text can stand between quotes as it is. -/
def IsPlain (s : String) : Prop :=
  (∀ c ∈ s.toList, Json.isBare c) ∧ ∀ c ∈ s.toList, Text.isLow c = true

instance (c : Char) : Decidable (Json.isBare c) := inferInstanceAs (Decidable (_ ∧ _ ∧ _))

instance (s : String) : Decidable (IsPlain s) :=
  @instDecidableAnd _ _ (List.decidableBAll _ _) (List.decidableBAll _ _)

def quoted (s : String) : List Char := '"' :: (s.toList ++ ['"'])

theorem spellsText_quoted {s : String} (h : IsPlain s) : Json.SpellsText (quoted s) s := by
  have plain : Text.ofPlain s = s := by
    rw [← String.toList_inj, ← s.ofList_toList, Text.toList_ofPlain, String.toList_ofList]
    exact Text.kept_of_isLow h.2
  have spelled : Json.SpellsText (quoted s) (Text.ofPlain s) :=
    .quoted (Json.spellsCodes_bare h.1)
  rwa [plain] at spelled

/-- A field whose spelling has no space. -/
def tight (key : String) (v : Value) (cs : List Char) : Json.SpelledField :=
  ⟨key, v, [], quoted key, [], cs⟩

theorem isNamed_tight {key : String} (h : IsPlain key) (v : Value) (cs : List Char) :
    (tight key v cs).IsNamed :=
  ⟨List.forall_mem_nil _, spellsText_quoted h, List.forall_mem_nil _⟩

def tightTable (fs : List Json.SpelledField) : List Char :=
  '\x7b' :: (List.intercalate [','] (fs.map Json.SpelledField.all) ++ ['\x7d'])

def packageFields (u : LoggedUnit) : List Json.SpelledField :=
  [tight "name" (.text u.name) (quoted u.name),
   tight "version" (.text u.version) (quoted u.version),
   tight "source" (.text u.source) (quoted u.source)]

def fields (u : LoggedUnit) : List Json.SpelledField :=
  [tight "package_id"
     (.table (Mapping.ofPairs (u.packageFields.map fun f => (f.key, f.value))))
     (tightTable u.packageFields),
   tight "args" (.list (u.args.map .text))
     ('[' :: (List.intercalate [','] (u.args.map quoted) ++ [']']))]

/-- A line with the fields that may not be left out. -/
def line (u : LoggedUnit) : List Char := tightTable u.fields

structure HasPlainTexts (u : LoggedUnit) : Prop where
  name : IsPlain u.name
  version : IsPlain u.version
  source : IsPlain u.source
  args : ∀ a ∈ u.args, IsPlain a
  some : u.args ≠ []

theorem spells_line {u : LoggedUnit} (h : u.HasPlainTexts) :
    Json.Spells 2 u.line (.table (Mapping.ofPairs (u.fields.map fun f => (f.key, f.value)))) := by
  have package : Json.Spells 1 (tightTable u.packageFields)
      (.table (Mapping.ofPairs (u.packageFields.map fun f => (f.key, f.value)))) := by
    refine .table (by simp [packageFields]) ?_ ?_
    · simp only [packageFields, List.forall_mem_cons]
      exact ⟨isNamed_tight (by decide) _ _, isNamed_tight (by decide) _ _,
        isNamed_tight (by decide) _ _, List.forall_mem_nil _⟩
    · simp only [packageFields, List.forall_mem_cons]
      exact ⟨.text 0 (spellsText_quoted h.name), .text 0 (spellsText_quoted h.version),
        .text 0 (spellsText_quoted h.source), List.forall_mem_nil _⟩
  have args : Json.Spells 1 ('[' :: (List.intercalate [','] (u.args.map quoted) ++ [']']))
      (.list (u.args.map .text)) := by
    let parts : List (List Char × Value) := u.args.map fun a => (quoted a, .text a)
    have spelled : ∀ p ∈ parts, Json.Spells 0 p.1 p.2 :=
      List.forall_mem_map.2 fun a ha => .text 0 (spellsText_quoted (h.args a ha))
    have list := Json.Spells.list (by simpa [parts] using h.some) spelled
    simpa [parts, Function.comp_def] using list
  refine .table (by simp [fields]) ?_ ?_
  · simp only [fields, List.forall_mem_cons]
    exact ⟨isNamed_tight (by decide) _ _, isNamed_tight (by decide) _ _, List.forall_mem_nil _⟩
  · simp only [fields, List.forall_mem_cons]
    exact ⟨package, args, List.forall_mem_nil _⟩

theorem writtenBy_fields {u : LoggedUnit} (library : u.customBuild = false)
    (placed : u.package.isLocal? = some u.isLocal) :
    u.WrittenBy (.table (Mapping.ofPairs (u.fields.map fun f => (f.key, f.value)))) where
  package :=
    ⟨.table (Mapping.ofPairs (u.packageFields.map fun f => (f.key, f.value))), rfl, rfl, rfl, rfl⟩
  args := rfl
  customBuild := .inr ⟨rfl, library⟩
  isLocal := .inr ⟨rfl, placed⟩

end LoggedUnit

namespace CompileUnit

def logPath : Path := Path.ofText "units.jsonl"

/-- A tree with nothing but a log. -/
def logTree (ls : List (List Char)) : FileTree :=
  ⟨[(⟨false, ["units.jsonl"]⟩,
    .file ((List.intercalate ['\n'] ls).flatMap String.utf8EncodeChar).toByteArray false)]⟩

theorem holdsLines_logTree (ls : List (List Char)) : (logTree ls).HoldsLines logPath ls where
  name := rfl
  bytes := ⟨_, false, rfl, List.toList_data_toByteArray⟩

def appUnit : LoggedUnit :=
  ⟨"app", "1.0.0", "path+file:///ws/app", ["--crate-name", "app"], false, true⟩

def logUnit : LoggedUnit :=
  ⟨"log", "0.4.0", "registry+index", ["--crate-name", "log", "--cfg", "é"], false, false⟩

/-- Two units with blank lines after them, one of which is more than one line. -/
def appLog : List (List Char) := [appUnit.line, [], logUnit.line, [' ', '\u2028'], []]

theorem hasPlainTexts_appUnit : appUnit.HasPlainTexts :=
  ⟨by decide, by decide, by decide, by decide, by decide⟩

theorem hasPlainTexts_logUnit : logUnit.HasPlainTexts :=
  ⟨by decide, by decide, by decide, by decide, by decide⟩

theorem logLines_appLog : LogLines appLog [appUnit, logUnit] := by
  refine .unit ⟨by decide, by decide⟩ (LoggedUnit.spells_line hasPlainTexts_appUnit) (by decide)
    (LoggedUnit.writtenBy_fields rfl rfl) ?_
  refine .blank ⟨by decide, by decide⟩ (by decide) ?_
  refine .unit ⟨by decide, by decide⟩ (LoggedUnit.spells_line hasPlainTexts_logUnit) (by decide)
    (LoggedUnit.writtenBy_fields rfl rfl) ?_
  refine .blank ⟨by decide, by decide⟩ (by decide) ?_
  exact .blank ⟨by decide, by decide⟩ (by decide) .nil

theorem isWholeLine_appLog : ∀ l ∈ appLog, IsWholeLine l := by
  have unended {l : List Char} (h : l.all (!Json.bareEnds.contains ·) = true) : IsWholeLine l :=
    .inr fun c hc => by simpa using List.all_eq_true.1 h c hc
  simp only [appLog, List.forall_mem_cons]
  exact ⟨unended (by decide), .inl (by decide), unended (by decide), .inl (by decide),
    .inl (by decide), List.forall_mem_nil _⟩

theorem ofLog_written_appLog :
    (logTree appLog).HoldsLines logPath appLog ∧ LogLines appLog [appUnit, logUnit] ∧
    ofLog (logTree appLog) logPath = .ok [appUnit.unit, logUnit.unit] := by
  have holds := holdsLines_logTree appLog
  exact ⟨holds, logLines_appLog, (ofLog_written holds logLines_appLog).1 isWholeLine_appLog⟩

def brokenUnit : LoggedUnit :=
  ⟨"app", "1.0.0", "path+file:///ws/app", ["--crate-name", "app", "--cfg", "a\u2028b"], false, true⟩

/-- A line separator that stands in a text breaks the line of its unit. -/
theorem not_ofLog_separator :
    (logTree [brokenUnit.line, []]).HoldsLines logPath [brokenUnit.line, []] ∧
    LogLines [brokenUnit.line, []] [brokenUnit] ∧
    (∃ line, ofLog (logTree [brokenUnit.line, []]) logPath =
      .error (.problem (.malformedLog logPath line .notJson))) ∧
    ofLog (logTree [brokenUnit.line, []]) logPath ≠ .ok [brokenUnit.unit] := by
  have plain : brokenUnit.HasPlainTexts := ⟨by decide, by decide, by decide, by decide, by decide⟩
  have holds := holdsLines_logTree [brokenUnit.line, []]
  have lines : LogLines [brokenUnit.line, []] [brokenUnit] := by
    refine .unit ⟨by decide, by decide⟩ (LoggedUnit.spells_line plain) (by decide)
      (LoggedUnit.writtenBy_fields rfl rfl) ?_
    exact .blank ⟨by decide, by decide⟩ (by decide) .nil
  have broken : ¬∀ l ∈ [brokenUnit.line, []], IsWholeLine l := by
    intro whole
    have spelled := LoggedUnit.spells_line plain
    have separator : '\u2028' ∈ brokenUnit.line := by decide
    exact notMem_bareEnds (whole _ List.mem_cons_self) spelled.opens _ separator (by decide)
  obtain ⟨line, refused⟩ := exists_ofLog_refused holds lines broken
  refine ⟨holds, lines, ⟨line, refused⟩, fun read => ?_⟩
  cases refused.symm.trans read

end CompileUnit

end UnusedDeps
