import Mathlib.Data.List.Pairwise
import Mathlib.Data.List.ReduceOption
import UnusedDeps.Proofs.Graph.WellFormed

/-!
# Package entries of a document

When no two package entries of a document have one raw identifier or one
identity, nothing that one entry says is replaced by another. Main statements:
a raw identifier leads to the identity of the one entry that has it, a package
of the graph is what its entry says, and so are the declarations of a package.
-/

namespace UnusedDeps

/-! ### What a document has -/

/-- The elements of a list field, none when there are none to read. -/
def Field.listed {α : Type} : Field (List α) → List α
  | .given xs => xs
  | _ => []

theorem Field.listed_eq {α : Type} {f : Field (List α)} {xs : List α}
    (h : f.listOrEmpty = .ok xs) : f.listed = xs := by
  cases f with
  | absent => exact Except.ok.inj h
  | malformed => cases h
  | given ys => exact Except.ok.inj h

/-- The raw identifier of a package entry: the one it has, or the text of the identity. -/
def PackageEntry.rawIdOf (p : PackageEntry) (id : PackageId) : Value :=
  p.rawId.getD (.text id.text)

namespace ResolverDocument

def packageEntries (doc : ResolverDocument) : List PackageEntry := doc.packages.listed.reduceOption

/-- Whether a raw identifier is that of a package entry, and which package that is. -/
structure Finds [Whereabouts] (doc : ResolverDocument) (raw : Value) (p : PackageEntry)
    (id : PackageId) : Prop where
  mem : p ∈ doc.packageEntries
  identity : ∃ manifest, p.identity = .ok (id, manifest)
  raw : (p.rawIdOf id).sameKey raw = true

/-- Whether no two package entries have one raw identifier or one identity. -/
def HasDistinctPackages [Whereabouts] (doc : ResolverDocument) : Prop :=
  doc.packageEntries.Pairwise fun p q => ∀ a m b n,
    p.identity = .ok (a, m) → q.identity = .ok (b, n) →
    a.same b = false ∧ (p.rawIdOf a).sameKey (q.rawIdOf b) = false

end ResolverDocument

/-! ### Rows -/

/-- Whether no two rows have one raw identifier or one identity. -/
def PackageRow.Distinct (rs : List PackageRow) : Prop :=
  rs.Pairwise fun r s => r.key ≠ s.key ∧ r.info.id.same s.info.id = false

theorem PackageRow.Distinct.perm {rs ss : List PackageRow} (h : Distinct rs) (perm : rs.Perm ss) :
    Distinct ss := by
  refine (perm.pairwise_iff ?_).1 h
  intro r s ⟨hkey, hid⟩
  exact ⟨hkey.symm, by rw [PackageId.same_comm, hid]⟩

theorem PackageRow.Distinct.eq_of_same {rs : List PackageRow} (h : Distinct rs) {r s : PackageRow}
    (hr : r ∈ rs) (hs : s ∈ rs) (same : r.info.id.same s.info.id = true) : r = s := by
  by_contra hne
  have symm : Std.Symm fun r s : PackageRow => r.key ≠ s.key ∧ r.info.id.same s.info.id = false :=
    ⟨fun a b hab => ⟨hab.1.symm, by rw [PackageId.same_comm, hab.2]⟩⟩
  have apart := (List.Pairwise.forall h hr hs hne).2
  rw [same] at apart
  cases apart

theorem PackageEntry.Reads.sameKey_iff [Whereabouts] {p : PackageEntry} {r : PackageRow}
    (h : p.Reads r)
    (raw : Value) : (p.rawIdOf r.info.id).sameKey raw = true ↔ raw.key? = some r.key := by
  rw [Value.sameKey_iff]
  constructor
  · rintro ⟨k, hk, hraw⟩
    cases h.key.symm.trans hk
    exact hraw
  · intro hraw
    exact ⟨r.key, h.key, hraw⟩

theorem forall₂_reduceOption {α β : Type} {R : α → β → Prop} {xs : List (Option α)} {ys : List β}
    (h : List.Forall₂ (fun x y => ∃ a, x = some a ∧ R a y) xs ys) :
    List.Forall₂ R xs.reduceOption ys := by
  induction h with
  | nil => exact .nil
  | cons hxy _ ih =>
    obtain ⟨a, rfl, hr⟩ := hxy
    rw [List.reduceOption_cons_of_some]
    exact .cons hr ih

theorem ResolverDocument.HasDistinctPackages.rows [Whereabouts] {doc : ResolverDocument}
    (h : doc.HasDistinctPackages) {rs : List PackageRow}
    (hrs : List.Forall₂ PackageEntry.Reads doc.packageEntries rs) : PackageRow.Distinct rs := by
  refine pairwise_of_forall₂ hrs h fun {p r q s} hr hs apart => ?_
  obtain ⟨hid, hraw⟩ := apart _ _ _ _ hr.identity hs.identity
  refine ⟨fun hkey => ?_, hid⟩
  have same : (p.rawIdOf r.info.id).sameKey (q.rawIdOf s.info.id) = true := by
    rw [hr.sameKey_iff, hkey]
    exact hs.key
  rw [hraw] at same
  cases same

/-! ### The table of distinct rows -/

theorem lookup_eq_some_iff_mem {κ ν : Type} [DecidableEq κ] {l : List (κ × ν)}
    (distinct : l.Pairwise fun a b => a.1 ≠ b.1) {k : κ} {v : ν} :
    l.lookup k = some v ↔ (k, v) ∈ l := by
  induction l with
  | nil => simp
  | cons e l ih =>
    obtain ⟨j, w⟩ := e
    obtain ⟨apart, distinct⟩ := List.pairwise_cons.1 distinct
    by_cases hk : k = j
    · subst hk
      have fresh : (k, v) ∉ l := fun hmem => apart _ hmem rfl
      simp [fresh, eq_comm]
    · rw [List.lookup_cons, beq_eq_false_iff_ne.2 hk, ih distinct]
      simp [hk]

theorem Graph.packages_addPackage_of_fresh {g : Graph} {p : PackageInfo}
    (fresh : ∀ q ∈ g.packages, q.id.same p.id = false) :
    (g.addPackage p).packages = g.packages ++ [p] := by
  have none : ¬(g.packages.any (·.id.same p.id)) = true := by
    rw [List.any_eq_true]
    rintro ⟨q, hq, hs⟩
    rw [fresh q hq] at hs
    cases hs
  exact if_neg none

namespace PackageTable

def ofRows (rs : List PackageRow) : PackageTable := rs.foldl addRow empty

theorem byRawId_addRows (t : PackageTable) (rs : List PackageRow) :
    (rs.foldl addRow t).byRawId = (rs.map fun r => (r.key, r.info.id)).reverse ++ t.byRawId := by
  induction rs generalizing t with
  | nil => rfl
  | cons r rs ih =>
    rw [List.foldl_cons, ih]
    simp [addRow]

theorem declared_addRows (t : PackageTable) (rs : List PackageRow) :
    (rs.foldl addRow t).declared =
      (rs.map fun r => (r.info.id, r.declared)).reverse ++ t.declared := by
  induction rs generalizing t with
  | nil => rfl
  | cons r rs ih =>
    rw [List.foldl_cons, ih]
    simp [addRow]

theorem packages_addRows {t : PackageTable} {rs : List PackageRow}
    (distinct : PackageRow.Distinct rs)
    (fresh : ∀ q ∈ t.graph.packages, ∀ r ∈ rs, q.id.same r.info.id = false) :
    (rs.foldl addRow t).graph.packages = t.graph.packages ++ rs.map (·.info) := by
  induction rs generalizing t with
  | nil => simp
  | cons r rs ih =>
    obtain ⟨apart, distinct⟩ := List.pairwise_cons.1 distinct
    have hadd : (t.addRow r).graph.packages = t.graph.packages ++ [r.info] :=
      Graph.packages_addPackage_of_fresh fun q hq => fresh q hq r List.mem_cons_self
    rw [List.foldl_cons, ih distinct, hadd]
    · simp
    · intro q hq s hs
      rw [hadd, List.mem_append, List.mem_singleton] at hq
      rcases hq with hq | rfl
      · exact fresh q hq s (List.mem_cons_of_mem r hs)
      · exact (apart s hs).2

section Distinct

variable {rs : List PackageRow} (distinct : PackageRow.Distinct rs)

include distinct

theorem packages_ofRows : (ofRows rs).graph.packages = rs.map (·.info) := by
  have fresh : ∀ q ∈ empty.graph.packages, ∀ r ∈ rs, q.id.same r.info.id = false :=
    fun q hq => absurd hq List.not_mem_nil
  exact packages_addRows distinct fresh

theorem byRawId_lookup_ofRows {k : Key} {id : PackageId} :
    (ofRows rs).byRawId.lookup k = some id ↔ ∃ r ∈ rs, r.key = k ∧ r.info.id = id := by
  have hids : (ofRows rs).byRawId = (rs.map fun r => (r.key, r.info.id)).reverse := by
    rw [ofRows, byRawId_addRows]
    exact List.append_nil _
  have apart : (ofRows rs).byRawId.Pairwise fun a b => a.1 ≠ b.1 := by
    rw [hids, List.pairwise_reverse, List.pairwise_map]
    exact distinct.imp fun hrs => hrs.1.symm
  rw [lookup_eq_some_iff_mem apart, hids]
  simp

theorem lookup_ofRows {raw : Value} {id : PackageId} :
    (ofRows rs).lookup raw = .ok id ↔ ∃ r ∈ rs, raw.key? = some r.key ∧ r.info.id = id := by
  unfold lookup
  rw [bind_eq_ok]
  constructor
  · rintro ⟨k, hk, h⟩
    cases hl : (ofRows rs).byRawId.lookup k with
    | none =>
      rw [hl] at h
      cases h
    | some id' =>
      rw [hl] at h
      cases pure_eq_ok.1 h
      obtain ⟨r, hr, rfl, hid⟩ := (byRawId_lookup_ofRows distinct).1 hl
      exact ⟨r, hr, orWrongType_eq_ok.1 hk, hid⟩
  · rintro ⟨r, hr, hraw, hid⟩
    refine ⟨r.key, orWrongType_eq_ok.2 hraw, ?_⟩
    rw [(byRawId_lookup_ofRows distinct).2 ⟨r, hr, rfl, hid⟩]
    rfl

theorem distinct_declared : (ofRows rs).declared.Pairwise fun a b => a.1.same b.1 = false := by
  rw [ofRows, declared_addRows]
  have hnil : empty.declared = [] := rfl
  rw [hnil, List.append_nil, List.pairwise_reverse, List.pairwise_map]
  exact distinct.imp fun hrs => by rw [PackageId.same_comm, hrs.2]

theorem distinct_packages :
    (ofRows rs).graph.packages.Pairwise fun p q => p.id.same q.id = false := by
  rw [packages_ofRows distinct, List.pairwise_map]
  exact distinct.imp fun hrs => hrs.2

theorem declarationsOf_ofRows {r : PackageRow} (hr : r ∈ rs) {id : PackageId}
    (hid : r.info.id.same id = true) : (ofRows rs).declarationsOf id = r.declared := by
  have hmem : (r.info.id, r.declared) ∈ (ofRows rs).declared := by
    rw [ofRows, declared_addRows, List.mem_append, List.mem_reverse]
    exact .inl (List.mem_map_of_mem hr)
  unfold declarationsOf
  rw [PackageId.find?_same_eq (distinct_declared distinct) hmem hid]
  rfl

theorem package?_ofRows {r : PackageRow} (hr : r ∈ rs) {id : PackageId}
    (hid : r.info.id.same id = true) : (ofRows rs).graph.package? id = some r.info := by
  have hmem : r.info ∈ (ofRows rs).graph.packages := by
    rw [packages_ofRows distinct]
    exact List.mem_map_of_mem hr
  exact PackageId.find?_same_eq (distinct_packages distinct) hmem hid

end Distinct

end PackageTable

/-! ### The table of a document -/

namespace ResolverDocument

theorem Yields.exists_rows [Whereabouts] {doc : ResolverDocument} {t : PackageTable}
    {nodes : List (Option NodeEntry)} {es : List Edge} {ids : List PackageId}
    (h : doc.Yields t nodes es ids) :
    ∃ rs, List.Forall₂ PackageEntry.Reads doc.packageEntries rs ∧ t = PackageTable.ofRows rs := by
  obtain ⟨ps, hps, ht⟩ := h.packagesRead
  obtain ⟨rs, hrs, rfl⟩ := PackageTable.ofEntries_eq_ok.1 ht
  refine ⟨rs, ?_, rfl⟩
  rw [packageEntries, Field.listed_eq hps]
  exact forall₂_reduceOption hrs

/-- A raw identifier leads to the package of the one entry that has it. -/
theorem lookup_iff_finds [Whereabouts] {doc : ResolverDocument} (distinct : doc.HasDistinctPackages)
    {rs : List PackageRow} (hrs : List.Forall₂ PackageEntry.Reads doc.packageEntries rs)
    {raw : Value} {id : PackageId} :
    (PackageTable.ofRows rs).lookup raw = .ok id ↔ ∃ p, doc.Finds raw p id := by
  rw [PackageTable.lookup_ofRows (distinct.rows hrs)]
  constructor
  · rintro ⟨r, hr, hraw, rfl⟩
    obtain ⟨p, hp, hread⟩ := exists_left_of_forall₂ hrs hr
    exact ⟨p, hp, ⟨_, hread.identity⟩, (hread.sameKey_iff raw).2 hraw⟩
  · rintro ⟨p, hp⟩
    obtain ⟨r, hr, hread⟩ := exists_right_of_forall₂ hrs hp.mem
    obtain ⟨manifest, hid⟩ := hp.identity
    cases hread.identity.symm.trans hid
    exact ⟨r, hr, (hread.sameKey_iff raw).1 hp.raw, rfl⟩

theorem Finds.reads [Whereabouts] {doc : ResolverDocument} {rs : List PackageRow}
    (hrs : List.Forall₂ PackageEntry.Reads doc.packageEntries rs) {raw : Value} {p : PackageEntry}
    {id : PackageId} (h : doc.Finds raw p id) :
    ∃ r ∈ rs, p.Reads r ∧ r.info.id = id ∧ r.info.id.same id = true := by
  obtain ⟨r, hr, hread⟩ := exists_right_of_forall₂ hrs h.mem
  obtain ⟨manifest, hid⟩ := h.identity
  cases hread.identity.symm.trans hid
  exact ⟨r, hr, hread, rfl, PackageId.same_self hread.keyed⟩

end ResolverDocument

end UnusedDeps
