import UnusedDeps.Proofs.Cargo.Cleaning

/-!
# What a build leaves in its recorder

A build that ends before it has a spool directory to read leaves its recorder as
it was. Otherwise the records in the spool directory are appended one by one, in
the order of the names of their files, and there is no way back: a file that holds
no record ends the build with the records before it appended. When every file
holds a record, all that the recorder held and all that was appended is handed
over, and the recorder is empty. Main statement: `ends_build`.
-/

namespace UnusedDeps.BuildSetup

/-- Whether a build of a graph comes as far as a spool directory with the given files: the wrapper
is found, the packages to be cleaned are, and the toolchain builds with success. -/
def Leaves [Whereabouts] (s : BuildSetup) (g : Graph) (exe : Option String) (spool : SpoolFiles) :
    Prop :=
  ∃ wrapper index names call result, s.wrapperPath? = some wrapper ∧
    PackagesIndex.ofGraph g = .ok index ∧ forcedNames index = .ok names ∧
    (names ≠ [] → s.Succeeds (s.cleanCall names)) ∧ s.checkCall wrapper exe index = .ok call ∧
    s.toolchain.answer call = .ended result spool ∧ result.code = 0

/-- Whether files are the record files of a spool directory, in the order of their names. -/
structure AreListed (spool files : SpoolFiles) : Prop where
  perm : files.Perm (spool.filter fun f => Spool.isRecordName f.1)
  sorted : files.Pairwise fun e f => Text.codes e.1 ≤ Text.codes f.1

/-- Whether files hold records, one each. -/
def Hold (files : SpoolFiles) (records : List InvocationRecord) : Prop :=
  List.Forall₂ (fun f record => Spool.readRecord f.2 = .ok record) files records

/-- How a build can end: with its result and the recorder after it. -/
inductive Ends [Whereabouts] (s : BuildSetup) (g : Graph) (r : Recorder) :
    Except Fault (List InvocationRecord) → Recorder → Prop where
  /-- There is no spool directory to read. -/
  | early {f : Fault} (nothing : ∀ spool, ¬s.Leaves g r.cargoExe spool) : Ends s g r (.error f) r
  /-- A file of the spool directory holds no record; those before it do. -/
  | refused {spool front back : SpoolFiles} {file : String × ByteArray}
      {records : List InvocationRecord} {f : Fault} (left : s.Leaves g r.cargoExe spool)
      (listed : AreListed spool (front ++ file :: back)) (held : Hold front records)
      (unreadable : Spool.readRecord file.2 = .error f) :
      Ends s g r (.error f) (r.appendAll records)
  /-- Every file holds a record. -/
  | returned {spool files : SpoolFiles} {records : List InvocationRecord}
      (left : s.Leaves g r.cargoExe spool) (listed : AreListed spool files)
      (held : Hold files records) :
      Ends s g r (.ok (r.pending ++ records)) { r with pending := [] }

/-! ### The files of the spool directory -/

theorem exists_areListed (spool : SpoolFiles) :
    ∃ files, AreListed spool files ∧ recordFiles spool = files.map (·.2) :=
  ⟨_, ⟨List.mergeSort_perm _ _, pairwise_sortByKey (fun f : String × ByteArray => Text.codes f.1) _⟩,
    rfl⟩

theorem of_appendFiles_ok {r after : Recorder} {files : SpoolFiles}
    (h : appendFiles r (files.map (·.2)) = (after, .ok ())) :
    ∃ records, after = r.appendAll records ∧ Hold files records := by
  obtain ⟨records, hafter, held⟩ := of_appendFiles h
  exact ⟨records, hafter, List.forall₂_map_left_iff.1 held⟩

theorem of_appendFiles_error {r after : Recorder} {files : SpoolFiles} {f : Fault}
    (h : appendFiles r (files.map (·.2)) = (after, .error f)) :
    ∃ front file back records, files = front ++ file :: back ∧ Hold front records ∧
      Spool.readRecord file.2 = .error f ∧ after = r.appendAll records := by
  induction files generalizing r with
  | nil => cases h
  | cons file files ih =>
    rw [List.map_cons, appendFiles] at h
    split at h
    · rename_i g unreadable
      cases h
      exact ⟨[], file, files, [], rfl, .nil, unreadable, (Recorder.appendAll_nil _).symm⟩
    · rename_i record hrecord
      obtain ⟨front, file', back, records, rfl, held, unreadable, rfl⟩ := ih h
      exact ⟨file :: front, file', back, record :: records, rfl, .cons hrecord held, unreadable,
        Recorder.appendAll_append _ [record] records⟩

theorem appendFiles_append {front : List ByteArray} {records : List InvocationRecord}
    (held : List.Forall₂ (fun bytes record => Spool.readRecord bytes = .ok record) front records)
    (rest : List ByteArray) (r : Recorder) :
    appendFiles r (front ++ rest) = appendFiles (r.appendAll records) rest := by
  induction held generalizing r with
  | nil => rw [List.nil_append, Recorder.appendAll_nil]
  | @cons bytes record front records hr _ ih =>
    have step : r.append record = r.appendAll [record] := rfl
    rw [List.cons_append, appendFiles, hr]
    simp only [ih, step, Recorder.appendAll_append, List.singleton_append]

/-! ### Up to the spool directory -/

variable {s : BuildSetup} {g : Graph} {exe : Option String}

theorem exists_result_succeed (stage : CargoStage) {args : List String}
    (h : s.Succeeds ⟨args, [], []⟩) :
    ∃ result, (s.succeed stage args).outcome.result = .ok result := by
  obtain ⟨result, spool, answer, ended⟩ := h
  refine ⟨result, ?_⟩
  rw [succeed, Driven.result_bind_eq_ok]
  refine ⟨_, Driven.result_command answer, ?_⟩
  simp only [ended, if_true]
  rfl

theorem result_forceRebuild_eq_ok_iff {names : List String} :
    (s.forceRebuild names).outcome.result = .ok () ↔
      (names ≠ [] → s.Succeeds (s.cleanCall names)) := by
  refine ⟨fun h => (of_result_forceRebuild h).2, fun h => ?_⟩
  cases names with
  | nil => rfl
  | cons name names =>
    obtain ⟨result, cleaned⟩ := exists_result_succeed .cleaning (h (List.cons_ne_nil _ _))
    rw [forceRebuild, if_neg (by simp), Driven.result_bind_eq_ok]
    exact ⟨(), rfl, Driven.result_bind_eq_ok.2 ⟨result, cleaned, rfl⟩⟩

theorem result_spooledFiles_eq_ok_iff [Whereabouts] {files : List ByteArray} :
    (s.spooledFiles g exe).outcome.result = .ok files ↔
      ∃ spool, s.Leaves g exe spool ∧ files = recordFiles spool := by
  unfold spooledFiles Leaves
  cases s.wrapperPath? with
  | none => simp [Driven.failWith, Driven.ofLogged, Logged.failWith, Logged.fail]
  | some wrapper =>
    dsimp only
    constructor
    · intro h
      obtain ⟨index, hindex, h⟩ := Driven.result_bind_eq_ok.1 h
      obtain ⟨names, hnames, h⟩ := Driven.result_bind_eq_ok.1 h
      obtain ⟨_, forced, h⟩ := Driven.result_bind_eq_ok.1 h
      obtain ⟨call, result, spool, called, answer, ended, listed, -⟩ := of_result_check h
      exact ⟨spool, ⟨wrapper, index, names, call, result, rfl, hindex, hnames,
        result_forceRebuild_eq_ok_iff.1 forced, called, answer, ended⟩, listed⟩
    · rintro ⟨spool, ⟨_, index, names, call, result, ⟨⟩, hindex, hnames, cleans, called, answer,
        ended⟩, rfl⟩
      refine Driven.result_bind_eq_ok.2 ⟨index, hindex, ?_⟩
      refine Driven.result_bind_eq_ok.2 ⟨names, hnames, ?_⟩
      refine Driven.result_bind_eq_ok.2 ⟨(), result_forceRebuild_eq_ok_iff.2 cleans, ?_⟩
      exact result_check called answer ended

/-! ### Every build -/

theorem build_of_unreadable [Whereabouts] {r after : Recorder} {files : List ByteArray} {f : Fault}
    (spooled : (s.spooledFiles g r.cargoExe).outcome.result = .ok files)
    (appended : appendFiles r files = (after, .error f)) :
    (s.build g r).records.outcome.result = .error f ∧ (s.build g r).recorder = after := by
  unfold build
  simp only [spooled, appended]
  exact ⟨trivial, trivial⟩

/-- A build ends in one of the three ways. -/
theorem ends_build [Whereabouts] (s : BuildSetup) (g : Graph) (r : Recorder) :
    Ends s g r (s.build g r).records.outcome.result (s.build g r).recorder := by
  unfold build
  cases spooled : (s.spooledFiles g r.cargoExe).outcome.result with
  | error f =>
    simp only [spooled]
    refine .early fun spool left => ?_
    rw [result_spooledFiles_eq_ok_iff.2 ⟨spool, left, rfl⟩] at spooled
    cases spooled
  | ok contents =>
    simp only [spooled]
    obtain ⟨spool, left, rfl⟩ := result_spooledFiles_eq_ok_iff.1 spooled
    obtain ⟨files, listed, content⟩ := exists_areListed spool
    rw [content]
    cases appended : appendFiles r (files.map (·.2)) with
    | mk after ended =>
      cases ended with
      | error f =>
        obtain ⟨front, file, back, records, rfl, held, unreadable, rfl⟩ :=
          of_appendFiles_error appended
        exact .refused left listed held unreadable
      | ok =>
        obtain ⟨records, rfl, held⟩ := of_appendFiles_ok appended
        exact .returned left listed held

-- A record file that is not UTF-8 ends the build as one that is cut short does.
example : Spool.readRecord ⟨#[0xff]⟩ = .error .notUtf8 := rfl

/-! ### A file that is cut short -/

/-- A record that stands in a spool directory. -/
def handedRecord : InvocationRecord := directRecord appPackage.id (.bool false) "app"

theorem isFaithful_handedRecord : handedRecord.IsFaithful where
  toHasFaithfulTexts := hasFaithfulTexts_directRecord _ _ (by decide)
  package := isIndexable_appGraph.ids appPackage List.mem_cons_self
  customBuild := ⟨false, rfl⟩
  name := ⟨"app", rfl⟩
  type := ⟨"bin", rfl⟩

/-- The files of a spool directory in which the second record file is empty. -/
def cutSpool : SpoolFiles :=
  [("a.record.json", Spool.recordBytes handedRecord), ("b.record.json", .empty)]

/-- A build whose toolchain leaves these files. -/
def cutSetup : BuildSetup where
  options := {}
  toolchain :=
    { executable := .ok "cargo"
      answer := fun _ => .ended ⟨"cargo", [], 0, "", ""⟩ cutSpool
      spoolDirectory := Path.ofText "/spool" }
  env := []
  files := .empty
  wrapper := some "wrapper"

theorem result_spooledFiles_cutSetup (exe : Option String) :
    (cutSetup.spooledFiles ⟨[], [], []⟩ exe).outcome.result =
      .ok [Spool.recordBytes handedRecord, .empty] := by
  have named : cutSpool.filter (fun f => Spool.isRecordName f.1) = cutSpool :=
    List.filter_eq_self.2 (by simp only [cutSpool, List.forall_mem_cons]; decide)
  have listed : recordFiles cutSpool = [Spool.recordBytes handedRecord, .empty] := by
    rw [recordFiles, named, sortByKey, List.mergeSort_of_pairwise]
    · rw [cutSpool, List.map_cons, List.map_cons, List.map_nil]
    · simp only [cutSpool, List.pairwise_cons, List.forall_mem_singleton]
      exact ⟨by decide, nofun, .nil⟩
  have indexable : Graph.IsIndexable ⟨[], [], []⟩ :=
    ⟨List.forall_mem_nil _, List.forall_mem_nil _, List.forall_mem_nil _, .nil⟩
  obtain ⟨index, hindex, perm⟩ := PackagesIndex.exists_ofGraph indexable
  obtain ⟨names, hnames⟩ := exists_forcedNames (PackagesIndex.isFaithful_of_perm indexable perm)
  refine result_spooledFiles_eq_ok_iff.2 ⟨cutSpool, ?_, listed.symm⟩
  exact ⟨"wrapper", index, names, _, _, rfl, hindex, hnames, fun _ => ⟨_, _, rfl, rfl⟩, rfl, rfl,
    rfl⟩

/-- A build can fail and leave records in its recorder. -/
theorem not_recorder_same :
    ¬∀ (s : BuildSetup) (g : Graph) (r : Recorder) (f : Fault),
      (s.build g r).records.outcome.result = .error f → (s.build g r).recorder = r := by
  intro same
  have read := Spool.readRecord_recordBytes isFaithful_handedRecord
  have unreadable : Spool.readRecord .empty = .error .notJson := rfl
  have appended : appendFiles (.fresh none) [Spool.recordBytes handedRecord, .empty] =
      ((Recorder.fresh none).appendAll [handedRecord], .error .notJson) := by
    have first := appendFiles_append (.cons read .nil) [.empty] (.fresh none)
    rw [appendFiles, unreadable] at first
    exact first
  obtain ⟨failed, kept⟩ := build_of_unreadable (result_spooledFiles_cutSetup _) appended
  exact List.cons_ne_nil _ _ (congrArg Recorder.pending (kept.symm.trans (same _ _ _ _ failed)))

end UnusedDeps.BuildSetup
