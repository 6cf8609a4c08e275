import UnusedDeps.Proofs.Graph.Shapes

/-!
# Which entry of a document counts

Several package entries of a document can have one raw identifier or one
identity. The last of them counts: it says which package the identifier names and
what the package declares. Main statement: `describes_ofEntries`. The table that
the entries fill says the same.
-/

namespace UnusedDeps

/-! ### Entries that count -/

namespace PackageTable

theorem lookup_eq_ok {t : PackageTable} {raw : Value} {id : PackageId} :
    t.lookup raw = .ok id ↔ ∃ key, raw.key? = some key ∧ t.byRawId.lookup key = some id := by
  unfold lookup
  rw [bind_eq_ok]
  refine exists_congr fun key => and_congr orWrongType_eq_ok ?_
  cases t.byRawId.lookup key with
  | none => exact ⟨nofun, nofun⟩
  | some found => rw [pure_eq_ok, Option.some.injEq]

end PackageTable

variable [Whereabouts]

/-- The identity of a package entry, where it has one. -/
def PackageEntry.id? (p : PackageEntry) : Option PackageId := p.identity.toOption.map (·.1)

namespace ResolverDocument

/-- The package that a raw identifier names, that of the last entry with it. -/
def package? (doc : ResolverDocument) (raw : Value) : Option PackageId :=
  doc.packageEntries.reverse.findSome? fun p => p.id?.filter fun id => (p.rawIdOf id).sameKey raw

/-- The declarations of a package, those of the last entry with its identity. -/
def declarationsOf (doc : ResolverDocument) (id : PackageId) : List Declaration :=
  ((doc.packageEntries.reverse.find? fun p => p.id?.any (·.same id)).map
    (·.dependencies.listed.reduceOption)).getD []

/-- The declarations of a package that are for another one. -/
def matching (doc : ResolverDocument) (source target : PackageId) : List Declaration :=
  (doc.declarationsOf source).filter fun d => d.name.map .text = some target.name

/-- Whether a raw identifier is that of a package entry. -/
def Knows (doc : ResolverDocument) (raw : Value) : Prop := ∃ p id, doc.Finds raw p id

variable {doc : ResolverDocument}

theorem package?_eq_none_iff {raw : Value} : doc.package? raw = none ↔ ¬doc.Knows raw := by
  have identity (p : PackageEntry) (id : PackageId) :
      p.id? = some id ↔ ∃ manifest, p.identity = .ok (id, manifest) := by
    rw [PackageEntry.id?]
    cases p.identity with
    | error f => simp [Except.toOption]
    | ok x =>
      obtain ⟨id', manifest⟩ := x
      simp [Except.toOption]
  rw [package?, List.findSome?_eq_none_iff]
  constructor
  · rintro none ⟨p, id, found⟩
    have filtered := none p (List.mem_reverse.2 found.mem)
    rw [(identity p id).2 found.identity, Option.filter_some, if_pos found.raw] at filtered
    cases filtered
  · intro unknown p hp
    rw [Option.filter_eq_none_iff]
    intro id hid same
    exact unknown ⟨p, id, List.mem_reverse.1 hp, (identity p id).1 hid, same⟩

theorem exists_of_mem_declarationsOf {id : PackageId} {d : Declaration}
    (h : d ∈ doc.declarationsOf id) :
    ∃ p ∈ doc.packageEntries, d ∈ p.dependencies.listed.reduceOption := by
  unfold declarationsOf at h
  cases found : doc.packageEntries.reverse.find? fun p => p.id?.any (·.same id) with
  | none =>
    rw [found] at h
    cases h
  | some p =>
    rw [found] at h
    exact ⟨p, List.mem_reverse.1 (List.mem_of_find?_eq_some found), h⟩

theorem isShaped_declarationsOf (h : doc.IsShaped) (id : PackageId) :
    ∀ d ∈ doc.declarationsOf id, d.IsShaped := by
  intro d hd
  obtain ⟨-, shaped⟩ := h.packages.exists_eq
  obtain ⟨p, hp, declared⟩ := exists_of_mem_declarationsOf hd
  exact (shaped p hp).dependencies.exists_eq.2 d declared

end ResolverDocument

/-! ### Rows -/

section Rows

variable {ps : List PackageEntry} {rs : List PackageRow}

theorem PackageEntry.Reads.id?_eq {p : PackageEntry} {r : PackageRow} (h : p.Reads r) :
    p.id? = some r.info.id := by
  rw [PackageEntry.id?, h.identity]
  rfl

theorem lookup_of_reads (h : List.Forall₂ PackageEntry.Reads ps rs) {raw : Value} {key : Key}
    (hkey : raw.key? = some key) :
    (rs.map fun r => (r.key, r.info.id)).lookup key =
      ps.findSome? fun p => p.id?.filter fun id => (p.rawIdOf id).sameKey raw := by
  induction h with
  | nil => rfl
  | @cons p r ps rs hr _ ih =>
    rw [List.map_cons, List.lookup_cons, List.findSome?_cons, hr.id?_eq, ih]
    by_cases same : key = r.key
    · have found : (p.rawIdOf r.info.id).sameKey raw = true :=
        (hr.sameKey_iff raw).2 (same ▸ hkey)
      rw [Option.filter_some, if_pos found, same, beq_self_eq_true]
    · have other : ¬(p.rawIdOf r.info.id).sameKey raw = true := fun found =>
        same (Option.some.inj (hkey.symm.trans ((hr.sameKey_iff raw).1 found)))
      rw [Option.filter_some, if_neg other, beq_eq_false_iff_ne.2 same]

theorem find?_of_reads (h : List.Forall₂ PackageEntry.Reads ps rs) (id : PackageId) :
    ((rs.map fun r => (r.info.id, r.declared)).find? (·.1.same id)).map (·.2) =
      (ps.find? fun p => p.id?.any (·.same id)).map (·.dependencies.listed) := by
  induction h with
  | nil => rfl
  | @cons p r ps rs hr _ ih =>
    rw [List.map_cons, List.find?_cons, List.find?_cons, hr.id?_eq, Option.any_some]
    cases r.info.id.same id with
    | true => exact congrArg some (Field.listed_eq hr.declared).symm
    | false => exact ih

end Rows

/-! ### What the table says -/

namespace PackageTable

/-- Whether a table of packages says what the entries of a document say. -/
structure Describes (t : PackageTable) (doc : ResolverDocument) : Prop where
  lookup : ∀ raw id, t.lookup raw = .ok id ↔ doc.package? raw = some id
  declared : ∀ id, t.declarationsOf id = (doc.declarationsOf id).map some
  textual : t.IsTextual

/-- The table of the entries of a document says what they say, the last one wherever several have
one identifier or one identity. -/
theorem describes_ofEntries {doc : ResolverDocument} (h : doc.IsShaped) {t : PackageTable}
    (ht : empty.ofEntries (doc.packageEntries.map some) = .ok t) : t.Describes doc := by
  obtain ⟨-, shaped⟩ := h.packages.exists_eq
  obtain ⟨rs, hrows, rfl⟩ := ofEntries_eq_ok.1 ht
  have hrs : List.Forall₂ PackageEntry.Reads doc.packageEntries rs := by
    rw [List.forall₂_map_left_iff] at hrows
    refine hrows.imp fun p r hr => ?_
    obtain ⟨q, hq, read⟩ := hr
    cases hq
    exact read
  have reversed := List.forall₂_reverse_iff.2 hrs
  have rawIds : (rs.foldl addRow empty).byRawId = rs.reverse.map fun r => (r.key, r.info.id) := by
    rw [byRawId_addRows, List.map_reverse]
    exact List.append_nil _
  have declared : (rs.foldl addRow empty).declared =
      rs.reverse.map fun r => (r.info.id, r.declared) := by
    rw [declared_addRows, List.map_reverse]
    exact List.append_nil _
  constructor
  case lookup =>
    intro raw id
    rw [lookup_eq_ok, rawIds]
    cases hkey : raw.key? with
    | none =>
      have none : doc.package? raw = none := by
        rw [ResolverDocument.package?_eq_none_iff]
        rintro ⟨p, id, found⟩
        obtain ⟨key, -, hraw⟩ := Value.sameKey_iff.1 found.raw
        rw [hkey] at hraw
        cases hraw
      simp [none]
    | some key =>
      simp only [Option.some.injEq, exists_eq_left', lookup_of_reads reversed hkey]
      rfl
  case declared =>
    intro id
    have entry := find?_of_reads reversed id
    unfold declarationsOf ResolverDocument.declarationsOf
    rw [declared, entry]
    cases found : doc.packageEntries.reverse.find? fun p => p.id?.any (·.same id) with
    | none => rfl
    | some p =>
      have hp := List.mem_reverse.1 (List.mem_of_find?_eq_some found)
      obtain ⟨hds, -⟩ := (shaped p hp).dependencies.exists_eq
      exact Field.listed_eq hds
  case textual =>
    refine isTextual_empty.ofEntries (fun p hp => ?_) ht
    obtain ⟨q, hq, heq⟩ := List.mem_map.1 hp
    exact Option.some.inj heq ▸ (shaped q hq).isTextual

end PackageTable

end UnusedDeps
