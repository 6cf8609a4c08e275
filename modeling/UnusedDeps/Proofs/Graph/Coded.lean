import UnusedDeps.Proofs.Graph.ManifestKey
import UnusedDeps.Proofs.Graph.Packages
import UnusedDeps.Proofs.Graph.Textual
import UnusedDeps.Proofs.Order

/-!
# Documents of texts that keep code points

Identities and manifest keys are sorted by code points. A document whose names,
versions, sources and renames are texts that keep code points, as every text
that is read from a document does, gives a graph in which identities and keys
are such texts.
-/

namespace UnusedDeps

/-- Whether the fields of a package entry that identities and manifest keys come from are texts
that keep code points. -/
structure PackageEntry.IsCoded (p : PackageEntry) : Prop where
  name : ∀ v, p.name = some v → v.IsCoded
  version : ∀ v, p.version = some v → v.IsCoded
  source : ∀ v, p.source = some v → v.IsCoded
  renames : ∀ d, some d ∈ p.dependencies.listed → ∀ r, d.rename = .given r → Text.IsCoded r

def ResolverDocument.IsCoded (doc : ResolverDocument) : Prop :=
  ∀ p ∈ doc.packageEntries, p.IsCoded

/-- Whether identities and manifest keys in a graph are texts that keep code points. -/
structure Graph.IsCoded (g : Graph) : Prop where
  packages : ∀ p ∈ g.packages, p.id.IsCoded
  edges : ∀ e ∈ g.edges, e.target.IsCoded ∧ Text.IsCoded e.name
  members : ∀ m ∈ g.members, m.IsCoded

/-! ### The source of a local package -/

theorem Text.isCoded_of_lt {s : String} (h : ∀ c ∈ s.toList, c.toNat < 0x100000) :
    Text.IsCoded s := by
  refine Text.isCoded_of_plain (List.all_eq_true.2 fun c hc => ?_)
  have hlt := h c hc
  have last : Text.mark.toNat = 0x10ffff := rfl
  have hmark : c ≠ Text.mark := by
    rintro rfl
    omega
  have hkeeps : Text.keepsHalfPair c = false := by
    simp only [Text.keepsHalfPair, Bool.and_eq_false_iff, decide_eq_false_iff_not]
    omega
  simp [hmark, hkeeps]

namespace Path

theorem toNat_upperHexDigit {n : Nat} (h : n < 16) : (upperHexDigit n).toNat < 0x80 := by
  have each : ∀ m < 16, (upperHexDigit m).toNat < 0x80 := by decide
  exact each n h

theorem toNat_of_mem_uriByte {b : UInt8} {c : Char} (h : c ∈ uriByte b) : c.toNat < 0x100 := by
  have hb : b.toNat < 256 := b.toNat_lt
  have valid : b.toNat.isValidChar := .inl (by omega)
  unfold uriByte at h
  split at h
  · cases List.mem_singleton.1 h
    rw [Text.toNat_ofNat_of_isValidChar valid]
    exact hb
  · simp only [List.mem_cons, List.not_mem_nil, or_false] at h
    rcases h with rfl | rfl | rfl
    · decide
    · have high := toNat_upperHexDigit (n := b.toNat / 16) (by omega)
      omega
    · have low := toNat_upperHexDigit (n := b.toNat % 16) (by omega)
      omega

theorem toNat_of_mem_localSource {p : Path} {c : Char}
    (hc : c ∈ (PackageId.localStart ++ p.toUri).toList) : c.toNat < 0x100000 := by
  have start : ((PackageId.localStart ++ "file://").toList.all fun c => c.toNat < 0x100) = true := by
    decide
  rw [toUri, ← String.append_assoc, String.toList_append, List.mem_append,
    String.toList_ofList] at hc
  rcases hc with hc | hc
  · have := of_decide_eq_true (List.all_eq_true.1 start c hc)
    omega
  · obtain ⟨b, -, hc⟩ := List.mem_flatMap.1 hc
    have := toNat_of_mem_uriByte hc
    omega

theorem isCoded_localSource (p : Path) : Text.IsCoded (PackageId.localStart ++ p.toUri) :=
  Text.isCoded_of_lt fun _ => toNat_of_mem_localSource

end Path

/-! ### Package entries -/

theorem PackageEntry.IsCoded.identity [Whereabouts] {p : PackageEntry} (hp : p.IsCoded)
    {id : PackageId} {manifest : Path} (h : p.identity = .ok (id, manifest)) : id.IsCoded := by
  obtain ⟨hname, hversion, -, hsource⟩ := p.of_identity h
  refine ⟨hp.name _ hname, hp.version _ hversion, ?_⟩
  rcases hsource with given | directory
  · exact hp.source _ given
  · exact directory ▸ ⟨_, rfl, Path.isCoded_localSource _⟩

namespace PackageTable

variable {rs : List PackageRow}

theorem exists_row_of_lookup {raw : Value} {id : PackageId}
    (h : (ofRows rs).lookup raw = .ok id) : ∃ r ∈ rs, r.info.id = id := by
  obtain ⟨key, hmem⟩ := mem_byRawId_of_lookup h
  rw [ofRows, byRawId_addRows, List.mem_append, List.mem_reverse, List.mem_map] at hmem
  rcases hmem with ⟨r, hr, heq⟩ | hmem
  · cases heq
    exact ⟨r, hr, rfl⟩
  · cases hmem

theorem exists_row_of_mem_declarationsOf {id : PackageId} {x : Option Declaration}
    (h : x ∈ (ofRows rs).declarationsOf id) : ∃ r ∈ rs, x ∈ r.declared := by
  unfold declarationsOf at h
  cases hf : (ofRows rs).declared.find? (·.1.same id) with
  | none =>
    rw [hf] at h
    cases h
  | some e =>
    rw [hf] at h
    have hmem := List.mem_of_find?_eq_some hf
    rw [ofRows, declared_addRows, List.mem_append, List.mem_reverse, List.mem_map] at hmem
    rcases hmem with ⟨r, hr, rfl⟩ | hmem
    · exact ⟨r, hr, h⟩
    · cases hmem

theorem exists_row_of_mem_packages {t : PackageTable} {p : PackageInfo}
    (h : p ∈ (rs.foldl addRow t).graph.packages) : p ∈ t.graph.packages ∨ ∃ r ∈ rs, r.info = p := by
  induction rs generalizing t with
  | nil => exact .inl h
  | cons r rs ih =>
    rcases ih h with h | ⟨s, hs, heq⟩
    · rcases Graph.mem_addPackage h with h | rfl
      · exact .inl h
      · exact .inr ⟨r, List.mem_cons_self, rfl⟩
    · exact .inr ⟨s, List.mem_cons_of_mem r hs, heq⟩

end PackageTable

/-! ### Graphs -/

/-- Every package of a graph is that of an entry. -/
theorem Graph.exists_entry_of_mem_packages [Whereabouts] {doc : ResolverDocument} {g : Graph}
    (h : Graph.ofDocument doc = .ok g) {p : PackageInfo} (hp : p ∈ g.packages) :
    ∃ e ∈ doc.packageEntries, e.identity = .ok (p.id, p.manifestPath) := by
  obtain ⟨t, nodes, es, ids, hy, rfl⟩ := ofDocument_eq_ok.1 h
  obtain ⟨rs, hrs, rfl⟩ := hy.exists_rows
  rw [packages_addMembers, packages_addEdges] at hp
  rcases PackageTable.exists_row_of_mem_packages hp with hp | ⟨r, hr, rfl⟩
  · cases hp
  · obtain ⟨e, he, hread⟩ := exists_left_of_forall₂ hrs hr
    exact ⟨e, he, hread.identity⟩

theorem Graph.isCoded_ofDocument [Whereabouts] {doc : ResolverDocument} {g : Graph}
    (h : Graph.ofDocument doc = .ok g) (hdoc : doc.IsCoded) : g.IsCoded := by
  obtain ⟨t, nodes, es, ids, hy, rfl⟩ := ofDocument_eq_ok.1 h
  obtain ⟨rs, hrs, rfl⟩ := hy.exists_rows
  have coded : ∀ r ∈ rs, r.info.id.IsCoded ∧
      ∀ d, some d ∈ r.declared → ∀ s, d.rename = .given s → Text.IsCoded s := by
    intro r hr
    obtain ⟨p, hp, hread⟩ := exists_left_of_forall₂ hrs hr
    have hcoded := hdoc p hp
    have hdeclared := Field.listed_eq hread.declared
    exact ⟨hcoded.identity hread.identity, hdeclared ▸ hcoded.renames⟩
  have found {raw : Value} {id : PackageId}
      (hl : (PackageTable.ofRows rs).lookup raw = .ok id) : id.IsCoded := by
    obtain ⟨r, hr, rfl⟩ := PackageTable.exists_row_of_lookup hl
    exact (coded r hr).1
  refine ⟨fun p hp => ?_, fun e he => ?_, fun m hm => ?_⟩
  · obtain ⟨e, he, hid⟩ := exists_entry_of_mem_packages h hp
    exact (hdoc e he).identity hid
  · rw [edges_addMembers] at he
    have hes := (mem_addEdges he).resolve_left (by simp [hy.sound.noEdges])
    obtain ⟨source, d, kind, hg⟩ := (PackageTable.mem_edgesOfNodes hy.edgesRead).1 hes
    obtain ⟨-, htarget, -, name, hname, -, hkey, -⟩ := hg.edge_eq
    refine ⟨found htarget, ?_⟩
    rcases nameInManifest_mem hkey with hn | ⟨d, hd, hr⟩
    · obtain ⟨s, hs, hcoded⟩ := (found htarget).name
      cases hname.symm.trans hs
      exact hn ▸ hcoded
    · obtain ⟨r, hrow, hmem⟩ := PackageTable.exists_row_of_mem_declarationsOf hd
      exact (coded r hrow).2 d hmem _ hr
  · obtain ⟨raws, -, hids⟩ := hy.membersRead
    have hm := (mem_addMembers hm).resolve_left (by simp [hy.sound.noMembers])
    obtain ⟨raw, -, hraw⟩ := exists_left_of_forall₂ (mapM_eq_ok.1 hids) hm
    exact found hraw

/-! ### Listing a graph -/

namespace Edge

theorem hasCodedKeys {e : Edge} (target : e.target.IsCoded) (name : Text.IsCoded e.name) :
    HasCodedKeys sortKeys? e := by
  obtain ⟨ks, hks, coded⟩ := target.hasCodedKeys
  have kind : Text.IsCoded e.kind.text := by
    cases e.kind <;> exact Text.isCoded_of_plain (by decide)
  refine ⟨.text e.kind.text :: .text e.name :: ks, by simp [sortKeys?, hks], ?_⟩
  rw [List.forall_mem_cons, List.forall_mem_cons]
  exact ⟨⟨_, rfl, kind⟩, ⟨_, rfl, name⟩, coded⟩

theorem sortKeys?_ne {e f : Edge} (target : e.target.IsCoded)
    (source : e.source.same f.source = true) (h : e.sameEntry f = false) :
    e.sortKeys? ≠ f.sortKeys? := by
  intro heq
  obtain ⟨ks, hks, -⟩ := target.hasCodedKeys
  have hf : f.sortKeys? = some (.text e.kind.text :: .text e.name :: ks) := by
    rw [← heq, sortKeys?, hks]
    rfl
  obtain ⟨ls, hls, hkeys⟩ := Option.map_eq_some_iff.1 hf
  simp only [List.cons.injEq, Key.text.injEq] at hkeys
  obtain ⟨hkind, hname, rfl⟩ := hkeys
  have kinds : e.kind = f.kind := by
    revert hkind
    cases e.kind <;> cases f.kind <;> decide
  have same : e.sameEntry f = true :=
    sameEntry_iff.2 ⟨source, PackageId.same_iff.2 ⟨ls, hks, hls⟩, kinds, hname.symm⟩
  rw [h] at same
  cases same

end Edge

namespace Graph.IsCoded

variable {g : Graph} (coded : g.IsCoded)

include coded

theorem packages_ne (distinct : g.packages.Pairwise fun p q => p.id.same q.id = false) :
    g.packages.Pairwise fun p q => p.id.keys? ≠ q.id.keys? :=
  distinct.imp_of_mem fun {p _} hp _ hpq => keys?_ne (coded.packages p hp) hpq

theorem members_ne (distinct : g.members.Pairwise fun m n => m.same n = false) :
    g.members.Pairwise fun m n => m.keys? ≠ n.keys? :=
  distinct.imp_of_mem fun {m _} hm _ hmn => keys?_ne (coded.members m hm) hmn

theorem hasCodedKeys_edges (p : PackageId) :
    ∀ e ∈ g.edges.filter (·.source.same p), HasCodedKeys Edge.sortKeys? e := by
  intro e he
  obtain ⟨target, name⟩ := coded.edges e (List.mem_filter.1 he).1
  exact Edge.hasCodedKeys target name

theorem edges_ne (distinct : g.edges.Pairwise fun e f => e.sameEntry f = false)
    (p : PackageId) :
    (g.edges.filter (·.source.same p)).Pairwise fun e f => e.sortKeys? ≠ f.sortKeys? := by
  refine (distinct.sublist List.filter_sublist).imp_of_mem fun {e f} he hf hef => ?_
  obtain ⟨he, hep⟩ := List.mem_filter.1 he
  have hfp := (List.mem_filter.1 hf).2
  have source := PackageId.same_trans hep (PackageId.same_symm hfp)
  exact Edge.sortKeys?_ne (coded.edges e he).1 source hef

theorem exists_sortedPackages
    (distinct : g.packages.Pairwise fun p q => p.id.same q.id = false) :
    ∃ ps, g.sortedPackages = .ok ps := by
  have keyed : ∀ p ∈ g.packages, HasCodedKeys (fun p : PackageInfo => p.id.keys?) p :=
    fun p hp => (coded.packages p hp).hasCodedKeys
  obtain ⟨ps, hps, -, -⟩ := exists_sortByKeys? keyed (coded.packages_ne distinct)
  exact ⟨ps, orWrongType_eq_ok.2 hps⟩

theorem exists_sortedMembers (distinct : g.members.Pairwise fun m n => m.same n = false) :
    ∃ ms, g.sortedMembers = .ok ms ∧ ms.Perm g.members ∧ ms.Pairwise PackageId.Before := by
  have keyed : ∀ m ∈ g.members, HasCodedKeys PackageId.keys? m :=
    fun m hm => (coded.members m hm).hasCodedKeys
  obtain ⟨ms, hms, perm, increasing⟩ := exists_sortByKeys? keyed (coded.members_ne distinct)
  exact ⟨ms, orWrongType_eq_ok.2 hms, perm, increasing⟩

theorem exists_dependencies (distinct : g.edges.Pairwise fun e f => e.sameEntry f = false)
    (p : PackageId) :
    ∃ es, g.dependencies p = .ok es ∧ es.Pairwise (Precedes Edge.sortKeys?) := by
  obtain ⟨es, hes, -, increasing⟩ :=
    exists_sortByKeys? (coded.hasCodedKeys_edges p) (coded.edges_ne distinct p)
  exact ⟨es, orWrongType_eq_ok.2 hes, increasing⟩

end Graph.IsCoded

end UnusedDeps
