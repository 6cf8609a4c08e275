import UnusedDeps.Proofs.Json.Joined
import UnusedDeps.Proofs.Spool.Record

/-!
# Records and identities that come back from a spool directory

Two halves of a surrogate pair that stand side by side in a text of a record are
joined in the one that comes back from its file, and nothing else is changed.
Whatever the arguments of a unit hold and whatever its directory is called, the
identity of its package comes back as it was, provided that it is made of texts
that come back from JSON. So do the identities in an index, though maybe under
another directory. Main statements: `readRecord_joined`, `package_of_readRecord`
and `exists_of_ofText_toText`.
-/

namespace UnusedDeps

/-! ### Joined texts -/

/-- A value with the halves of pairs in a text joined; other values are kept. -/
def Value.joined : Value → Value
  | .text s => .text (Text.joined s)
  | v => v

theorem Value.isFaithfulText_joined {v : Value} (h : v.IsText) : v.joined.IsFaithfulText := by
  obtain ⟨s, rfl⟩ := h
  exact ⟨_, rfl, Text.isFaithful_joined s⟩

theorem Value.IsFaithfulText.joined {v : Value} (h : v.IsFaithfulText) : v.joined = v := by
  obtain ⟨s, rfl, hs⟩ := h
  rw [Value.joined, Text.joined_of_isFaithful hs]

theorem Value.written_joined (v : Value) :
    Json.written .ascii v.joined = Json.written .ascii v := by
  cases v with
  | text s => exact Json.writtenText_joined s
  | _ => rfl

/-- An identity with the halves of pairs in its texts joined. -/
def PackageId.joined (p : PackageId) : PackageId :=
  ⟨p.name.joined, p.version.joined, p.source.joined⟩

theorem PackageId.isFaithful_joined {p : PackageId} (h : p.IsTextual) : p.joined.IsFaithful where
  name := Value.isFaithfulText_joined h.name
  version := Value.isFaithfulText_joined h.version
  source := Value.isFaithfulText_joined h.source

theorem PackageId.IsFaithful.joined {p : PackageId} (h : p.IsFaithful) : p.joined = p := by
  rw [PackageId.joined, h.name.joined, h.version.joined, h.source.joined]

theorem PackageId.IsFaithful.isTextual {p : PackageId} (h : p.IsFaithful) : p.IsTextual where
  name := h.name.imp fun _ hs => hs.1
  version := h.version.imp fun _ hs => hs.1
  source := h.source.imp fun _ hs => hs.1

/-! ### Records -/

namespace InvocationRecord

/-- A record with the halves of pairs in its texts joined. -/
def joined (r : InvocationRecord) : InvocationRecord where
  package := r.package.joined
  customBuild := r.customBuild
  crateName := r.crateName.joined
  crateType := r.crateType.joined
  extraFilename := Text.joined r.extraFilename
  capLintsAllow := r.capLintsAllow
  outDir := Path.ofText (Text.joined r.outDir.text)
  externs := r.externs.map fun e => (Text.joined e.1, Text.joined e.2)

theorem IsFaithful.joined {r : InvocationRecord} (h : r.IsFaithful) : r.joined = r := by
  obtain ⟨name, hname⟩ := h.name
  obtain ⟨type, htype⟩ := h.type
  have crateName : r.crateName.joined = r.crateName :=
    Value.IsFaithfulText.joined ⟨name, hname, h.crateName name hname⟩
  have crateType : r.crateType.joined = r.crateType :=
    Value.IsFaithfulText.joined ⟨type, htype, h.crateType type htype⟩
  have externs : r.externs.map (fun e => (Text.joined e.1, Text.joined e.2)) = r.externs := by
    refine (List.map_congr_left fun e he => ?_).trans (List.map_id _)
    rw [Text.joined_of_isFaithful (h.externs e he).1, Text.joined_of_isFaithful (h.externs e he).2]
    rfl
  rw [InvocationRecord.joined, h.package.joined, crateName, crateType,
    Text.joined_of_isFaithful h.extraFilename, Text.joined_of_isFaithful h.outDir,
    Path.ofText_text, externs]

/-- The value that comes back from the text of a record. -/
def joinedValue (r : InvocationRecord) : Value :=
  .table [
    ("package_id", .table [
      ("name", r.joined.package.name),
      ("version", r.joined.package.version),
      ("source", r.joined.package.source)]),
    ("custom_build", r.customBuild),
    ("crate_name", r.joined.crateName),
    ("crate_type", r.joined.crateType),
    ("extra_filename", .text r.joined.extraFilename),
    ("cap_lints_allow", .bool r.capLintsAllow),
    ("out_dir", .text (Text.joined r.outDir.text)),
    ("externs", .list (r.joined.externs.map fun e => .list [.text e.1, .text e.2]))]

theorem written_joinedValue (r : InvocationRecord) :
    Json.written .ascii r.joinedValue = Json.written .ascii r.toValue := by
  have externs :
      Json.writtenItems .ascii (r.joined.externs.map fun e => .list [.text e.1, .text e.2]) =
        Json.writtenItems .ascii (r.externs.map fun e => .list [.text e.1, .text e.2]) := by
    refine Json.writtenItems_congr ?_
    rw [joined, List.map_map, List.forall₂_map_left_iff, List.forall₂_map_right_iff,
      List.forall₂_same]
    intro e _
    simp only [Function.comp_apply, Json.written, Json.writtenItems, Json.writtenText_joined]
  simp only [joinedValue, toValue, Json.written, Json.writtenFields, externs]
  simp only [joined, PackageId.joined, Value.written_joined, Json.writtenText_joined]

theorem isFaithful_joinedValue {r : InvocationRecord} (h : r.IsOfTexts)
    (package : r.package.IsTextual) : r.joinedValue.IsFaithful 3 := by
  obtain ⟨b, hb⟩ := h.customBuild
  have parts := PackageId.isFaithful_joined package
  have identity : (Value.table [("name", r.joined.package.name),
      ("version", r.joined.package.version), ("source", r.joined.package.source)]).IsFaithful 2 := by
    refine Value.isFaithful_table ["name", "version", "source"] rfl (by decide) (by decide) ?_
    simp only [List.map_cons, List.map_nil, List.forall_mem_cons]
    exact ⟨parts.name.isFaithful 1, parts.version.isFaithful 1, parts.source.isFaithful 1,
      List.forall_mem_nil _⟩
  have externs : (Value.list (r.joined.externs.map fun e =>
      .list [.text e.1, .text e.2])).IsFaithful 2 := by
    refine .list fun v hv => ?_
    obtain ⟨e', he', rfl⟩ := List.mem_map.1 hv
    obtain ⟨e, -, rfl⟩ := List.mem_map.1 he'
    refine .list ?_
    simp only [List.forall_mem_cons]
    exact ⟨.text 0 (Text.isFaithful_joined e.1), .text 0 (Text.isFaithful_joined e.2),
      List.forall_mem_nil _⟩
  refine Value.isFaithful_table ["package_id", "custom_build", "crate_name", "crate_type",
    "extra_filename", "cap_lints_allow", "out_dir", "externs"] rfl (by decide) (by decide) ?_
  simp only [List.map_cons, List.map_nil, List.forall_mem_cons]
  exact ⟨identity, hb ▸ .bool 2 b, (Value.isFaithfulText_joined h.name).isFaithful 2,
    (Value.isFaithfulText_joined h.type).isFaithful 2, .text 2 (Text.isFaithful_joined _),
    .bool 2 _, .text 2 (Text.isFaithful_joined _), externs, List.forall_mem_nil _⟩

theorem decode_joinedValue {ε : Type} {d : Decoder ε} (keeps : d.KeepsTexts)
    {r : InvocationRecord} (h : r.IsOfTexts) : decode d r.joinedValue = .ok r.joined := by
  obtain ⟨b, hb⟩ := h.customBuild
  obtain ⟨name, hname⟩ := h.name
  obtain ⟨type, htype⟩ := h.type
  have crateName : r.joined.crateName = .text (Text.joined name) := congrArg Value.joined hname
  have crateType : r.joined.crateType = .text (Text.joined type) := congrArg Value.joined htype
  rw [decode_eq_ok_iff]
  exact {
    package := ⟨_, rfl, rfl⟩
    customBuild := ⟨_, rfl, hb.trans (by rw [hb, Value.isTruthy])⟩
    crateName := ⟨_, _, rfl, crateName ▸ keeps _, crateName⟩
    crateType := ⟨_, _, rfl, crateType ▸ keeps _, crateType⟩
    extraFilename := ⟨_, rfl, keeps _⟩
    capLintsAllow := ⟨_, rfl, rfl⟩
    outDir := ⟨_, _, rfl, rfl, rfl⟩
    externs := ⟨_, rfl, externsOf_list keeps _⟩ }

end InvocationRecord

namespace Spool

theorem recordBytes_eq (r : InvocationRecord) :
    recordBytes r = FileTree.bytesOf (Json.print .ascii r.joinedValue) :=
  congrArg (fun cs => FileTree.bytesOf (String.ofList cs)) r.written_joinedValue.symm

/-- What comes back from the file of a record is the record with the halves of pairs joined. -/
theorem readRecord_joined {r : InvocationRecord} (h : r.IsOfTexts) (package : r.package.IsTextual) :
    readRecord (recordBytes r) = .ok r.joined := by
  rw [recordBytes_eq, readRecord_print (r.isFaithful_joinedValue h package)]
  exact InvocationRecord.decode_joinedValue (InvocationRecord.keepsTexts_within room) h

/-- The identity of the package comes back from the file of a record. -/
theorem package_of_readRecord {r r' : InvocationRecord} (h : r.IsOfTexts)
    (package : r.package.IsFaithful)
    (read : readRecord (recordBytes r) = .ok r') : r'.package = r.package := by
  cases (readRecord_joined h package.isTextual).symm.trans read
  exact package.joined

end Spool

/-! ### The index -/

namespace PackagesIndex

/-- The entry that comes back for an entry of an index. -/
def joinedEntry (e : Path × PackageId) : Path × PackageId :=
  (Path.ofText (Text.joined e.1.text), e.2)

/-- The row that comes back for an entry of an index. -/
def joinedRow (e : Path × PackageId) : Value :=
  .table [("manifest_dir", .text (Text.joined e.1.text)), ("name", e.2.name),
    ("version", e.2.version), ("source", e.2.source)]

theorem ofRow_joinedRow (e : Path × PackageId) : ofRow (joinedRow e) = .ok (joinedEntry e) := by
  rw [ofRow, mapError_eq_ok]
  rfl

variable {index : PackagesIndex}

theorem written_joinedRows (rows : List (Path × PackageId)) :
    Json.written .ascii (.list (rows.map joinedRow)) =
      Json.written .ascii (.list (rows.map rowValue)) := by
  have items : Json.writtenItems .ascii (rows.map joinedRow) =
      Json.writtenItems .ascii (rows.map rowValue) := by
    refine Json.writtenItems_congr ?_
    rw [List.forall₂_map_left_iff, List.forall₂_map_right_iff, List.forall₂_same]
    intro e _
    simp only [joinedRow, rowValue, Json.written, Json.writtenFields, Json.writtenText_joined]
  rw [Json.written, Json.written, items]

theorem isFaithful_joinedRows {rows : List (Path × PackageId)}
    (ids : ∀ e ∈ rows, e.2.IsFaithful) : (Value.list (rows.map joinedRow)).IsFaithful 2 := by
  refine .list fun v hv => ?_
  obtain ⟨e, he, rfl⟩ := List.mem_map.1 hv
  refine Value.isFaithful_table ["manifest_dir", "name", "version", "source"] rfl (by decide)
    (by decide) ?_
  simp only [List.map_cons, List.map_nil, List.forall_mem_cons]
  exact ⟨.text 0 (Text.isFaithful_joined _), (ids e he).name.isFaithful 0,
    (ids e he).version.isFaithful 0, (ids e he).source.isFaithful 0, List.forall_mem_nil _⟩

theorem ofText_toText_of_ids (ids : ∀ e ∈ index, e.2.IsFaithful) :
    ofText index.toText = .ok (Mapping.ofPairs (index.sorted.map joinedEntry)) := by
  have ids' : ∀ e ∈ index.sorted, e.2.IsFaithful := fun e he => ids e ((mem_sortByKey _ _ _).1 he)
  have text : index.toText = Json.print .ascii (.list (index.sorted.map joinedRow)) :=
    congrArg String.ofList (written_joinedRows index.sorted).symm
  have rows : (index.sorted.map joinedRow).mapM ofRow = .ok (index.sorted.map joinedEntry) := by
    rw [mapM_eq_ok, List.forall₂_map_left_iff, List.forall₂_map_right_iff, List.forall₂_same]
    exact fun e _ => ofRow_joinedRow e
  rw [text, ofText, valueOfJson_print (isFaithful_joinedRows ids') (by decide)]
  show ((index.sorted.map joinedRow).mapM ofRow).map Mapping.ofPairs = _
  rw [rows]
  rfl

end PackagesIndex

/-- Every identity that is found in an index that was read back stands in the index. -/
theorem PackagesIndex.exists_of_ofText_toText {index back : PackagesIndex}
    (ids : ∀ e ∈ index, e.2.IsFaithful) (read : ofText index.toText = .ok back) {directory : Path}
    {id : PackageId} (found : Mapping.get? back directory = some id) : ∃ e ∈ index, e.2 = id := by
  rw [ofText_toText_of_ids ids, Except.ok.injEq] at read
  rw [← read] at found
  obtain ⟨e, he, heq⟩ := List.mem_map.1 (Mapping.mem_of_mem_ofPairs (Mapping.mem_of_get? found))
  rw [joinedEntry, Prod.mk.injEq] at heq
  exact ⟨e, (mem_sortByKey _ _ _).1 he, heq.2⟩

end UnusedDeps
