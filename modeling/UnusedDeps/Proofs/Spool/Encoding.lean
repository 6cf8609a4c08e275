import UnusedDeps.Proofs.Json.Depth
import UnusedDeps.Proofs.Spool.Identity

/-!
# Records as values

A record is written as a value without a change and read back with many: flags are
read off any value, names off any value that can be shown, a pair off any value
with two elements. What is read once is written and read again as it is. A value
that gives no record is malformed, and the complaint is of a key that is missing
or of a value of the wrong kind; a value that is deeper than there is room for may
end the run, but no document is. Main statement: `encodes_records`.
-/

namespace UnusedDeps

/-! ### Ways to fail -/

section

variable {ε α β : Type} {P : ε → Prop}

/-- Whether a step fails for certain reasons only. -/
def FailsOnly (P : ε → Prop) (x : Except ε α) : Prop := ∀ e, x = .error e → P e

theorem failsOnly_ok (a : α) : FailsOnly P (.ok a : Except ε α) := fun _ => nofun

theorem failsOnly_error {e : ε} (h : P e) : FailsOnly P (.error e : Except ε α) := by
  rintro _ ⟨⟩
  exact h

theorem failsOnly_bind {x : Except ε α} {f : α → Except ε β} (hx : FailsOnly P x)
    (hf : ∀ a, FailsOnly P (f a)) : FailsOnly P (x >>= f) := by
  intro e h
  rcases bind_eq_error.1 h with h | ⟨a, -, h⟩
  · exact hx e h
  · exact hf a e h

theorem failsOnly_mapM {f : α → Except ε β} (hf : ∀ a, FailsOnly P (f a)) (xs : List α) :
    FailsOnly P (xs.mapM f) := by
  induction xs with
  | nil => exact failsOnly_ok []
  | cons x xs ih =>
    rw [List.mapM_cons]
    exact failsOnly_bind (hf x) fun y => failsOnly_bind ih fun ys => failsOnly_ok _

theorem failsOnly_mapError {δ : Type} {Q : δ → Prop} {f : ε → δ} {x : Except ε α}
    (hx : FailsOnly P x) (hf : ∀ e, P e → Q (f e)) : FailsOnly Q (x.mapError f) := by
  cases x with
  | ok a => exact failsOnly_ok a
  | error e => exact failsOnly_error (hf e (hx e rfl))

end

/-! ### Want of room -/

section

variable {α β : Type} {deep : Prop}

/-- Whether a step ends as another one does, or for want of room, which only deep values lead to. -/
def EndsAs (deep : Prop) (x : Except Fault α) (y : Except Problem α) : Prop :=
  x = y.mapError .problem ∨ x = .error .tooDeep ∧ deep

theorem endsAs_ok (a : α) : EndsAs deep (.ok a) (.ok a) := .inl rfl

theorem endsAs_error (p : Problem) : EndsAs deep (.error (.problem p) : Except Fault α) (.error p) :=
  .inl rfl

theorem EndsAs.bind {x : Except Fault α} {y : Except Problem α} {f : α → Except Fault β}
    {g : α → Except Problem β} (h : EndsAs deep x y)
    (rest : ∀ a, y = .ok a → EndsAs deep (f a) (g a)) : EndsAs deep (x >>= f) (y >>= g) := by
  rcases h with rfl | ⟨rfl, hdeep⟩
  · cases y with
    | ok a => exact rest a rfl
    | error p => exact endsAs_error p
  · exact .inr ⟨rfl, hdeep⟩

theorem EndsAs.mapM {f : α → Except Fault β} {g : α → Except Problem β} {xs : List α}
    (h : ∀ x ∈ xs, EndsAs deep (f x) (g x)) : EndsAs deep (xs.mapM f) (xs.mapM g) := by
  induction xs with
  | nil => exact endsAs_ok []
  | cons x xs ih =>
    rw [List.forall_mem_cons] at h
    rw [List.mapM_cons, List.mapM_cons]
    exact h.1.bind fun y _ => (ih h.2).bind fun ys _ => endsAs_ok _

end

namespace InvocationRecord

/-! ### Complaints -/

/-- The keys under which a record is written. -/
def keys : List String :=
  ["package_id", "name", "version", "source", "custom_build", "crate_name", "crate_type",
    "extra_filename", "cap_lints_allow", "out_dir", "externs"]

/-- Whether a complaint is of a value that gives no record. -/
def IsDecodingComplaint : Complaint → Prop
  | .missingKey name => name ∈ keys
  | .wrongType => True
  | .badValue => True
  | _ => False

theorem failsOnly_field (v : Value) {name : String} (h : name ∈ keys) :
    FailsOnly IsDecodingComplaint (field v name) := by
  unfold field
  split
  · split
    · exact failsOnly_ok _
    · exact failsOnly_error h
  · exact failsOnly_error trivial

theorem failsOnly_textOf (v : Value) : FailsOnly IsDecodingComplaint (textOf v) := by
  unfold textOf
  split
  · exact failsOnly_ok _
  · exact failsOnly_error trivial

theorem failsOnly_packageOf (v : Value) : FailsOnly IsDecodingComplaint (packageOf v) :=
  failsOnly_bind (failsOnly_field v (by decide)) fun _ =>
    failsOnly_bind (failsOnly_field v (by decide)) fun _ =>
      failsOnly_bind (failsOnly_field v (by decide)) fun _ => failsOnly_ok _

/-- Whether a problem is a complaint of a value that gives no record. -/
def IsMalformed (p : Problem) : Prop := ∃ c, p = .malformedRecord c ∧ IsDecodingComplaint c

theorem isMalformed {c : Complaint} (h : IsDecodingComplaint c) :
    IsMalformed (.malformedRecord c) := ⟨c, rfl, h⟩

theorem failsOnly_shown (v : Value) : FailsOnly IsMalformed (unlimited.shown v) := by
  unfold unlimited
  dsimp only
  split
  · exact failsOnly_ok _
  · exact failsOnly_error (isMalformed trivial)

theorem failsOnly_externOf (v : Value) : FailsOnly IsMalformed (externOf unlimited v) := by
  unfold externOf
  split
  · exact failsOnly_error (isMalformed trivial)
  · exact failsOnly_bind (failsOnly_shown _) fun _ =>
      failsOnly_bind (failsOnly_shown _) fun _ => failsOnly_ok _
  · exact failsOnly_error (isMalformed trivial)

theorem failsOnly_externsOf (v : Value) : FailsOnly IsMalformed (externsOf unlimited v) := by
  unfold externsOf
  split
  · exact failsOnly_error (isMalformed trivial)
  · exact failsOnly_mapM failsOnly_externOf _

theorem failsOnly_ofValue (v : Value) : FailsOnly IsMalformed (ofValue v) := by
  have key {name : String} (h : name ∈ keys) :
      FailsOnly IsMalformed ((field v name).mapError unlimited.refuse) :=
    failsOnly_mapError (failsOnly_field v h) fun _ => isMalformed
  have read {α : Type} {x : Except Complaint α} (h : FailsOnly IsDecodingComplaint x) :
      FailsOnly IsMalformed (x.mapError unlimited.refuse) :=
    failsOnly_mapError h fun _ => isMalformed
  refine failsOnly_bind (key (by decide)) fun w => ?_
  refine failsOnly_bind (read (failsOnly_packageOf w)) fun _ => ?_
  refine failsOnly_bind (key (by decide)) fun _ => ?_
  iterate 3
    refine failsOnly_bind (key (by decide)) fun w => ?_
    refine failsOnly_bind (failsOnly_shown w) fun _ => ?_
  refine failsOnly_bind (key (by decide)) fun _ => ?_
  refine failsOnly_bind (key (by decide)) fun w => ?_
  refine failsOnly_bind (read (failsOnly_textOf w)) fun _ => ?_
  refine failsOnly_bind (key (by decide)) fun w => ?_
  exact failsOnly_bind (failsOnly_externsOf w) fun _ => failsOnly_ok _

/-! ### Room for a value -/

theorem depth_le_of_field {v w : Value} {name : String} (h : field v name = .ok w) :
    w.depth ≤ v.depth := by
  unfold field at h
  split at h
  · split at h
    · rename_i found
      cases h
      exact Value.depth_le_of_get? found
    · cases h
  · cases h

section Room

variable {room : Nat} {v : Value}

theorem endsAs_shown {w : Value} (h : w.depth ≤ v.depth) :
    EndsAs (room < v.depth) ((within room).shown w) (unlimited.shown w) := by
  unfold within unlimited Value.shown?
  dsimp only
  rcases Value.shownWithin_cases room w with same | ⟨tooDeep, deep⟩
  · rw [same]
    cases shown : w.shownWithin w.depth with
    | ok s => exact endsAs_ok s
    | error f =>
      cases f with
      | hugeInteger => exact endsAs_error _
      | tooDeep => exact absurd shown w.shownWithin_depth_ne_tooDeep
  · rw [tooDeep]
    exact .inr ⟨rfl, by omega⟩

theorem endsAs_externOf {w : Value} (h : w.depth ≤ v.depth) :
    EndsAs (room < v.depth) (externOf (within room) w) (externOf unlimited w) := by
  unfold externOf
  split
  · exact endsAs_error _
  · rename_i a b elements
    have depths (u : Value) (hu : u ∈ [a, b]) : u.depth ≤ v.depth :=
      (Value.depth_le_of_mem_elements? elements hu).trans h
    exact (endsAs_shown (depths a (by simp))).bind fun _ _ =>
      (endsAs_shown (depths b (by simp))).bind fun _ _ => endsAs_ok _
  · exact endsAs_error _

theorem endsAs_externsOf {w : Value} (h : w.depth ≤ v.depth) :
    EndsAs (room < v.depth) (externsOf (within room) w) (externsOf unlimited w) := by
  unfold externsOf
  split
  · exact endsAs_error _
  · rename_i items elements
    exact .mapM fun u hu => endsAs_externOf ((Value.depth_le_of_mem_elements? elements hu).trans h)

theorem endsAs_refuse {α : Type} (x : Except Complaint α) :
    EndsAs (room < v.depth) (x.mapError (within room).refuse) (x.mapError unlimited.refuse) := by
  cases x with
  | ok a => exact endsAs_ok a
  | error c => exact endsAs_error _

end Room

/-- Reading a value where there is little room ends as it does where there is room for all of it,
or for want of room. -/
theorem endsAs_ofValue (room : Nat) (v : Value) :
    EndsAs (room < v.depth) (ofValueWithin room v) (ofValue v) := by
  have depth {name : String} {w : Value} (h : (field v name).mapError unlimited.refuse = .ok w) :
      w.depth ≤ v.depth := depth_le_of_field (mapError_eq_ok.1 h)
  refine (endsAs_refuse (field v "package_id")).bind fun w _ => ?_
  refine (endsAs_refuse (packageOf w)).bind fun package _ => ?_
  refine (endsAs_refuse (field v "custom_build")).bind fun custom _ => ?_
  refine (endsAs_refuse (field v "crate_name")).bind fun w hw => ?_
  refine (endsAs_shown (depth hw)).bind fun name _ => ?_
  refine (endsAs_refuse (field v "crate_type")).bind fun w hw => ?_
  refine (endsAs_shown (depth hw)).bind fun type _ => ?_
  refine (endsAs_refuse (field v "extra_filename")).bind fun w hw => ?_
  refine (endsAs_shown (depth hw)).bind fun extra _ => ?_
  refine (endsAs_refuse (field v "cap_lints_allow")).bind fun caps _ => ?_
  refine (endsAs_refuse (field v "out_dir")).bind fun w _ => ?_
  refine (endsAs_refuse (textOf w)).bind fun directory _ => ?_
  refine (endsAs_refuse (field v "externs")).bind fun w hw => ?_
  exact (endsAs_externsOf (depth hw)).bind fun externs _ => endsAs_ok _

/-! ### Writing and reading -/

theorem IsDecodedFrom.isOfTexts {ε : Type} {d : Decoder ε} {r : InvocationRecord} {v : Value}
    (h : IsDecodedFrom d r v) : r.IsOfTexts where
  customBuild := h.customBuild.elim fun w hw => ⟨w.isTruthy, hw.2⟩
  name := h.crateName.elim fun _ ⟨s, _, _, hs⟩ => ⟨s, hs⟩
  type := h.crateType.elim fun _ ⟨s, _, _, hs⟩ => ⟨s, hs⟩

theorem exists_document_print {r : InvocationRecord} (h : r.IsFaithful) (charset : Json.Charset) :
    ∃ v, Json.document (Json.print charset r.toValue) = .ok v ∧ ofValue v = .ok r :=
  ⟨_, Json.document_print charset (isFaithful_toValue h) (by decide),
    decode_toValue keepsTexts_unlimited h.isOfTexts⟩

theorem ofValue_cases (v : Value) :
    (∃ r, ofValue v = .ok r ∧ r.IsOfTexts) ∨
      ∃ c, ofValue v = .error (.malformedRecord c) ∧ IsDecodingComplaint c := by
  cases h : ofValue v with
  | ok r => exact .inl ⟨r, rfl, (decode_eq_ok_iff.1 h).isOfTexts⟩
  | error p =>
    obtain ⟨c, rfl, hc⟩ := failsOnly_ofValue v p h
    exact .inr ⟨c, rfl, hc⟩

/-- Records are written and read back as they are, however little room there is. Through JSON, too,
they come back, but with the halves of surrogate pairs joined that stand side by side in a text:
JSON cannot tell these from the pair. Every value gives a record or is malformed where there is
room for all of it, as there is for every document, and a record that it gives is written and read
back as it is; where there is less room, a deeper value may end the run. -/
theorem encodes_records :
    (∀ r : InvocationRecord, r.IsOfTexts →
      ofValue r.toValue = .ok r ∧ ∀ room, ofValueWithin room r.toValue = .ok r) ∧
    (∀ r : InvocationRecord, r.IsOfTexts → r.package.IsTextual →
      Spool.readRecord (Spool.recordBytes r) = .ok r.joined) ∧
    (∀ r : InvocationRecord, r.IsFaithful → r.joined = r ∧
      ∀ charset : Json.Charset, ∃ v, Json.document (Json.print charset r.toValue) = .ok v ∧
        ofValue v = .ok r) ∧
    (∀ v : Value, (∃ r, ofValue v = .ok r ∧ ofValue r.toValue = .ok r) ∨
      ∃ c, ofValue v = .error (.malformedRecord c) ∧ IsDecodingComplaint c) ∧
    (∀ room v, ofValueWithin room v = (ofValue v).mapError .problem ∨
      ofValueWithin room v = .error .tooDeep ∧ room < v.depth) ∧
    ∀ s v, Json.document s = .ok v → v.depth ≤ Spool.room := by
  refine ⟨fun r h => ?_, fun r => Spool.readRecord_joined, fun r h => ?_, fun v => ?_,
    endsAs_ofValue, fun s v => Json.depth_le_of_document⟩
  · exact ⟨decode_toValue keepsTexts_unlimited h, fun room =>
      decode_toValue (keepsTexts_within room) h⟩
  · exact ⟨h.joined, exists_document_print h⟩
  · rcases ofValue_cases v with ⟨r, given, texts⟩ | malformed
    · exact .inl ⟨r, given, decode_toValue keepsTexts_unlimited texts⟩
    · exact .inr malformed

/-- A record with a name of other than ASCII characters. -/
def umlautRecord : InvocationRecord where
  package := ⟨.text "app", .text "1.0.0", .text "path+file:///ws/app"⟩
  customBuild := .bool true
  crateName := .text (Text.ofPlain "größe")
  crateType := .text "lib"
  extraFilename := "-1"
  capLintsAllow := false
  outDir := Path.ofText "/target"
  externs := [("log", "/target/liblog.rlib"), ("proc_macro", "")]

/-- A value in which hardly any field is of the kind that is written. -/
def looseValue : Value :=
  .table [
    ("package_id", .table [("name", .int 1), ("version", .null), ("source", .list [])]),
    ("custom_build", .text "false"),
    ("crate_name", .int 7),
    ("crate_type", .bool true),
    ("extra_filename", .null),
    ("cap_lints_allow", .list []),
    ("out_dir", .text "a/./b//"),
    ("externs", .list [.text "ab", .list [.text "log", .int 1]])]

/-- The record that it gives. -/
def looseRecord : InvocationRecord where
  package := ⟨.int 1, .null, .list []⟩
  customBuild := .bool true
  crateName := .text "7"
  crateType := .text "True"
  extraFilename := "None"
  capLintsAllow := false
  outDir := Path.ofText "a/b"
  externs := [("a", "b"), ("log", "1")]

theorem encodes_records_umlaut :
    ofValue umlautRecord.toValue = .ok umlautRecord ∧
      Spool.readRecord (Spool.recordBytes umlautRecord) = .ok umlautRecord ∧
      ∃ r, ofValue looseValue = .ok r ∧ ofValue r.toValue = .ok r := by
  have shown {s : String} (h : Text.IsShown s) : (Value.text s).IsFaithfulText :=
    ⟨s, rfl, h.isFaithful⟩
  have faithful : umlautRecord.IsFaithful := {
    package := ⟨shown (by decide), shown (by decide), shown (by decide +kernel)⟩
    customBuild := ⟨true, rfl⟩
    name := ⟨_, rfl⟩
    type := ⟨_, rfl⟩
    crateName := fun s hs => Value.text.inj hs ▸ Text.isFaithful_ofPlain _
    crateType := fun s hs => Value.text.inj hs ▸ Text.IsShown.isFaithful (by decide)
    extraFilename := Text.IsShown.isFaithful (s := "-1") (by decide)
    outDir := Text.IsShown.isFaithful (s := umlautRecord.outDir.text) (by decide +kernel)
    externs := by
      simp only [umlautRecord, List.forall_mem_cons]
      exact ⟨⟨Text.IsShown.isFaithful (by decide), Text.IsShown.isFaithful (by decide +kernel)⟩,
        ⟨Text.IsShown.isFaithful (by decide), Text.IsShown.isFaithful (by decide)⟩,
        List.forall_mem_nil _⟩ }
  obtain ⟨values, files, same, reads, -, -⟩ := encodes_records
  refine ⟨(values _ faithful.isOfTexts).1, ?_, ?_⟩
  · rw [files _ faithful.isOfTexts faithful.package.isTextual, (same _ faithful).1]
  refine (reads looseValue).resolve_right ?_
  rintro ⟨c, malformed, -⟩
  have given : ofValue looseValue = .ok looseRecord := by rfl
  cases given.symm.trans malformed

/-- A record whose name is made of the two halves of a surrogate pair. -/
def halvesRecord : InvocationRecord :=
  { umlautRecord with crateName := .text (Text.ofCodes [0xd83d, 0xde00]) }

/-- Lists in lists, so many levels deep. -/
def nested : Nat → Value
  | 0 => .list []
  | n + 1 => .list [nested n]

/-- The value of a record with lists in the place of its name. -/
def nestedValue (n : Nat) : Value :=
  .table [
    ("package_id", .table [("name", .null), ("version", .null), ("source", .null)]),
    ("custom_build", .null),
    ("crate_name", nested n)]

theorem showFault?_nested (room : Nat) : (nested (room + 1)).showFault? room = some .tooDeep := by
  induction room with
  | zero => rfl
  | succ room ih =>
    rw [nested, Value.showFault?, Value.showFaultItems?, ih]
    rfl

/-- The halves come back joined, and wherever a process has room for so many levels there are values
that are too deep for it. -/
theorem not_comesBack_halvesRecord :
    halvesRecord.IsOfTexts ∧ halvesRecord.package.IsTextual ∧
      (∃ r, Spool.readRecord (Spool.recordBytes halvesRecord) = .ok r ∧
        r ≠ halvesRecord) ∧
      ∀ room, ∃ v, ofValueWithin room v = .error .tooDeep := by
  have ofTexts : halvesRecord.IsOfTexts := ⟨⟨true, rfl⟩, ⟨_, rfl⟩, ⟨_, rfl⟩⟩
  have package : halvesRecord.package.IsTextual := ⟨⟨_, rfl⟩, ⟨_, rfl⟩, ⟨_, rfl⟩⟩
  refine ⟨ofTexts, package, ⟨_, Spool.readRecord_joined ofTexts package, ?_⟩, fun room => ?_⟩
  · decide +kernel
  · refine ⟨nestedValue (room + 1), ?_⟩
    have shown : (within room).shown (nested (room + 1)) = .error .tooDeep := by
      show ((nested (room + 1)).shownWithin room).mapError _ = _
      rw [Value.shownWithin, showFault?_nested]
      rfl
    show ((within room).shown (nested (room + 1)) >>= fun _ => _) = _
    rw [shown]
    rfl

end InvocationRecord

end UnusedDeps
