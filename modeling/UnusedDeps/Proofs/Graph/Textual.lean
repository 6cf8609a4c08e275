import UnusedDeps.Proofs.Graph.WellFormed

/-!
# Documents of texts

The format of resolver documents has texts for names, versions, sources and
identifiers. A document that keeps to it in the fields that identities, aliases
and libraries come from gives a graph in which all of these are texts.
-/

namespace UnusedDeps

namespace Graph

/-- Whether the names in a graph are texts, as they are in a document of the right types. -/
structure IsTextual (g : Graph) : Prop where
  packages : ∀ p ∈ g.packages, p.id.IsTextual ∧ ∀ v, p.libName = some v → v.IsText
  edges : ∀ e ∈ g.edges, e.source.IsTextual ∧ e.target.IsTextual ∧ e.externName.IsText ∧
    ∀ v, e.targetLib = some v → v.IsText
  members : ∀ m ∈ g.members, m.IsTextual

end Graph

/-! ### Documents -/

/-- Whether the fields of a package entry that identities and libraries come from are texts. -/
structure PackageEntry.IsTextual (p : PackageEntry) : Prop where
  name : ∀ v, p.name = some v → v.IsText
  version : ∀ v, p.version = some v → v.IsText
  source : ∀ v, p.source = some v → v.IsText
  targets : ∀ ts, p.targets.listOrEmpty = .ok ts →
    ∀ t, some t ∈ ts → ∀ v, t.name = some v → v.IsText

/-- Whether the names of packages, libraries and aliases in a document are texts. -/
structure ResolverDocument.IsTextual (doc : ResolverDocument) : Prop where
  packages : ∀ ps, doc.packages.listOrEmpty = .ok ps → ∀ p, some p ∈ ps → p.IsTextual
  aliases : ∀ field ns, doc.nodes = .given field → field.listOrEmpty = .ok ns →
    ∀ n, some n ∈ ns → ∀ ds, n.deps.listOrEmpty = .ok ds →
      ∀ d, some d ∈ ds → ∀ v, d.name = some v → v.IsText

/-! ### Packages -/

theorem PackageEntry.require_eq_ok {α : Type} {p : PackageEntry} {name : String} {x : Option α}
    {a : α} : p.require name x = .ok a ↔ x = some a := by
  cases x <;> simp [require]

/-- The identity of a package entry has its name and its version, and its source or that of the
directory of its manifest. -/
theorem PackageEntry.of_identity [Whereabouts] {p : PackageEntry} {id : PackageId} {manifest : Path}
    (h : p.identity = .ok (id, manifest)) :
    p.name = some id.name ∧ p.version = some id.version ∧ p.manifest = .ok manifest ∧
      (p.source = some id.source ∨
        id.source = .text (PackageId.localStart ++ manifest.parent.resolve.toUri)) := by
  obtain ⟨name, hn, h⟩ := bind_eq_ok.1 h
  obtain ⟨version, hv, h⟩ := bind_eq_ok.1 h
  obtain ⟨path, hp, h⟩ := bind_eq_ok.1 h
  have hname := require_eq_ok.1 hn
  have hversion := require_eq_ok.1 hv
  cases hs : p.source with
  | some source =>
    simp only [hs] at h
    cases pure_eq_ok.1 h
    exact ⟨hname, hversion, hp, .inl rfl⟩
  | none =>
    simp only [hs] at h
    obtain ⟨id', hid, h⟩ := bind_eq_ok.1 h
    cases pure_eq_ok.1 h
    unfold PackageId.ofDirectory at hid
    split at hid
    · cases hid
    · cases hid
      exact ⟨hname, hversion, hp, .inr rfl⟩

theorem PackageEntry.IsTextual.identity [Whereabouts] {p : PackageEntry} (hp : p.IsTextual)
    {id : PackageId} {manifest : Path} (h : p.identity = .ok (id, manifest)) : id.IsTextual := by
  obtain ⟨hname, hversion, -, hsource⟩ := p.of_identity h
  refine ⟨hp.name _ hname, hp.version _ hversion, ?_⟩
  rcases hsource with given | directory
  · exact hp.source _ given
  · exact directory ▸ Value.isText_text _

theorem mem_of_libraryName {ts : List (Option TargetEntry)} {v : Value}
    (h : libraryName ts = .ok (some v)) : ∃ t, some t ∈ ts ∧ t.name = some v := by
  induction ts with
  | nil => cases h
  | cons t ts ih =>
    cases t with
    | none => cases h
    | some t =>
      obtain ⟨isLibrary, -, h⟩ := bind_eq_ok.1 h
      split at h
      · exact ⟨t, List.mem_cons_self, pure_eq_ok.1 h⟩
      · obtain ⟨u, hu, hv⟩ := ih h
        exact ⟨u, List.mem_cons_of_mem _ hu, hv⟩

namespace PackageTable

/-- Whether all identities and libraries that the table holds are texts. -/
structure IsTextual (t : PackageTable) : Prop where
  packages : ∀ p ∈ t.graph.packages, p.id.IsTextual ∧ ∀ v, p.libName = some v → v.IsText
  identities : ∀ e ∈ t.byRawId, e.2.IsTextual

theorem isTextual_empty : empty.IsTextual where
  packages := fun _ h => absurd h List.not_mem_nil
  identities := fun _ h => absurd h List.not_mem_nil

theorem IsTextual.addEntry [Whereabouts] {t t' : PackageTable} {p : PackageEntry} (ht : t.IsTextual)
    (hp : p.IsTextual) (h : t.addEntry p = .ok t') : t'.IsTextual := by
  obtain ⟨r, hr, rfl⟩ := addEntry_eq_ok.1 h
  obtain ⟨targets, htargets, hlib⟩ := hr.library
  have htextual := hp.identity hr.identity
  refine ⟨fun q hq => ?_, fun e he => ?_⟩
  · rcases Graph.mem_addPackage hq with hq | rfl
    · exact ht.packages q hq
    · refine ⟨htextual, fun v hv => ?_⟩
      rw [hv] at hlib
      obtain ⟨u, hu, hname⟩ := mem_of_libraryName hlib
      exact hp.targets targets htargets u hu v hname
  · rcases List.mem_cons.1 he with rfl | he
    · exact htextual
    · exact ht.identities e he

theorem IsTextual.ofEntries [Whereabouts] {t t' : PackageTable} {ps : List (Option PackageEntry)}
    (ht : t.IsTextual) (hps : ∀ p, some p ∈ ps → p.IsTextual) (h : t.ofEntries ps = .ok t') :
    t'.IsTextual := by
  induction ps generalizing t with
  | nil => exact Except.ok.inj h ▸ ht
  | cons p ps ih =>
    cases p with
    | none => cases h
    | some p =>
      obtain ⟨u, hu, h⟩ := bind_eq_ok.1 h
      exact ih (ht.addEntry (hps p List.mem_cons_self) hu)
        (fun q hq => hps q (List.mem_cons_of_mem _ hq)) h

theorem IsTextual.lookup {t : PackageTable} (ht : t.IsTextual) {raw : Value} {id : PackageId}
    (h : t.lookup raw = .ok id) : id.IsTextual := by
  obtain ⟨key, hmem⟩ := mem_byRawId_of_lookup h
  exact ht.identities _ hmem

end PackageTable

/-! ### Graphs -/

theorem ResolverDocument.IsTextual.externName [Whereabouts] {doc : ResolverDocument}
    (hdoc : doc.IsTextual)
    {t : PackageTable} {nodes : List (Option NodeEntry)} {es : List Edge} {ids : List PackageId}
    (hy : doc.Yields t nodes es ids) {source : PackageId} {d : DependencyEntry}
    {kind : Option Value} {e : Edge} (hg : t.Gives nodes source d kind e) :
    e.externName.IsText := by
  obtain ⟨n, deps, hmem, -, hdeps, hd⟩ := hg.listed
  obtain ⟨-, -, -, name, -, halias, -⟩ := hg.edge_eq
  rw [halias]
  cases hname : d.name with
  | none => exact Value.isText_text _
  | some v =>
    obtain ⟨field, hfield, hnodes⟩ := hy.nodesRead
    exact hdoc.aliases field nodes hfield hnodes n hmem deps hdeps d hd v hname

theorem ResolverDocument.Gives.externName_isText [Whereabouts] {doc : ResolverDocument}
    {source : PackageId}
    {d : DependencyEntry} {kind : Option Value} {e : Edge} (h : doc.Gives source d kind e)
    (hdoc : doc.IsTextual) : e.externName.IsText := by
  obtain ⟨t, nodes, es, ids, hy, hg⟩ := h
  exact hdoc.externName hy hg

theorem Graph.isTextual_ofDocument [Whereabouts] {doc : ResolverDocument} {g : Graph}
    (h : Graph.ofDocument doc = .ok g) (hdoc : doc.IsTextual) : g.IsTextual := by
  obtain ⟨t, nodes, es, ids, hy, rfl⟩ := ofDocument_eq_ok.1 h
  obtain ⟨ps, hps, htable⟩ := hy.packagesRead
  have ht := PackageTable.isTextual_empty.ofEntries (hdoc.packages ps hps) htable
  refine ⟨?_, fun e he => ?_, fun m hm => ?_⟩
  · simpa using ht.packages
  · rw [edges_addMembers] at he
    have hes := (mem_addEdges he).resolve_left (by simp [hy.sound.noEdges])
    obtain ⟨source, d, kind, hg⟩ := (PackageTable.mem_edgesOfNodes hy.edgesRead).1 hes
    obtain ⟨n, deps, -, hn, -, -⟩ := hg.listed
    obtain ⟨hsource, htarget, -, name, -, -, -, hlib⟩ := hg.edge_eq
    refine ⟨hsource ▸ ht.lookup hn, ht.lookup htarget, hdoc.externName hy hg, fun v hv => ?_⟩
    · obtain ⟨p, hp, hv⟩ := Option.bind_eq_some_iff.1 (hlib.symm.trans hv)
      exact (ht.packages p (List.mem_of_find?_eq_some hp)).2 v hv
  · obtain ⟨raws, -, hids⟩ := hy.membersRead
    have hm := (mem_addMembers hm).resolve_left (by simp [hy.sound.noMembers])
    obtain ⟨raw, -, hraw⟩ := exists_left_of_forall₂ (mapM_eq_ok.1 hids) hm
    exact ht.lookup hraw

end UnusedDeps
