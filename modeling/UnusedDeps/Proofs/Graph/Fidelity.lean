import UnusedDeps.Proofs.Graph.Registry

/-!
# The graph of a document is what the document says

A document says, entry by entry and kind by kind, which package depends on which
other one and under which key of its manifest. Main statement:
`reflects_ofValue`. The graph has one edge for each key that is said, no other,
and the edge is the one that was said last; listing the edges of a package or
the members of the workspace leaves nothing out and repeats nothing.
-/

namespace UnusedDeps

/-! ### What a document says -/

/-- A dependency entry of a node, with one of its kinds. -/
structure Occurrence where
  node : NodeEntry
  entry : DependencyEntry
  kind : Option Value

/-- The kinds of a dependency entry; one without any is a normal dependency. -/
def DependencyEntry.kindEntries (d : DependencyEntry) : List (Option Value) :=
  match d.kinds with
  | .absent | .given [] => [some .null]
  | .malformed => []
  | .given (k :: ks) => k :: ks

namespace NodeEntry

def entries (n : NodeEntry) : List DependencyEntry := n.deps.listed.reduceOption

def occurrences (n : NodeEntry) : List Occurrence :=
  n.entries.flatMap fun d => d.kindEntries.map fun k => ⟨n, d, k⟩

end NodeEntry

namespace ResolverDocument

def nodeEntries (doc : ResolverDocument) : List NodeEntry :=
  match doc.nodes with
  | .given nodes => nodes.listed.reduceOption
  | _ => []

/-- The dependency entries of a document with their kinds, in document order. -/
def occurrences (doc : ResolverDocument) : List Occurrence :=
  doc.nodeEntries.flatMap NodeEntry.occurrences

/-- The edge that a document says with a kind of a dependency entry. -/
structure Denotes [Whereabouts] (doc : ResolverDocument) (o : Occurrence) (e : Edge) : Prop where
  source : ∃ p, doc.Finds o.node.rawId p e.source ∧ ∃ name, e.target.name = .text name ∧
    e.externName = o.entry.name.getD (.text (Text.underscored name)) ∧
    nameInManifest p.dependencies.listed name e.kind e.externName = .ok e.name
  target : ∃ q, doc.Finds o.entry.package q e.target ∧
    libraryName q.targets.listed = .ok e.targetLib
  kind : ∃ v, o.kind = some v ∧ DependencyKind.ofValue v = .ok e.kind

end ResolverDocument

/-! ### Lists of kinds -/

theorem exists_fields_of_mem {α : Type} {read : Fields → α} {v : Option Value} {x : α}
    (h : x ∈ (Field.ofOption (Field.entries read) v).listed.reduceOption) :
    ∃ fields, x = read fields := by
  cases v with
  | none => cases h
  | some v =>
    rw [Field.ofOption, Field.entries, List.reduceOption_mem_iff] at h
    cases hv : v.elements? with
    | none =>
      rw [hv] at h
      cases h
    | some items =>
      rw [hv] at h
      obtain ⟨item, -, hitem⟩ := List.mem_map.1 h
      cases item with
      | table fields => exact ⟨fields, (Option.some.inj hitem).symm⟩
      | _ => cases hitem

theorem elements?_ne_nil {v : Value} (h : v.isTruthy = true) : v.elements? ≠ some [] := by
  cases v with
  | text s =>
    have codes : Text.codes s ≠ [] := by
      have hs : s.toList ≠ [] := by
        intro hnil
        rw [String.toList_eq_nil_iff] at hnil
        simp [Value.isTruthy, hnil] at h
      unfold Text.codes Text.codesOf
      split
      · exact absurd ‹_› hs
      · simp
      · split <;> simp
    simpa [Value.elements?] using codes
  | list items => simpa [Value.elements?, Value.isTruthy] using h
  | table fields => simpa [Value.elements?, Value.isTruthy] using h
  | _ => simp [Value.elements?]

theorem kinds_ofFields (fields : Fields) : (DependencyEntry.ofFields fields).kinds ≠ .given [] := by
  rw [DependencyEntry.ofFields]
  cases Mapping.get? fields "dep_kinds" with
  | none => simp [Field.ofOption]
  | some v =>
    rw [Field.ofOption, DependencyEntry.kindsOf]
    split
    · rename_i truthy
      have some := elements?_ne_nil truthy
      rw [Field.entries]
      cases hv : v.elements? with
      | none => simp
      | some items =>
        rw [hv] at some
        simpa using some
    · simp

namespace ResolverDocument

/-- Whether no dependency entry has an empty list of kinds; such a list reads as left out. -/
def FillsKinds (doc : ResolverDocument) : Prop :=
  ∀ n ∈ doc.nodeEntries, ∀ d ∈ n.entries, d.kinds ≠ .given []

theorem fillsKinds_ofValue? {v : Value} {doc : ResolverDocument} (h : ofValue? v = some doc) :
    doc.FillsKinds := by
  intro n hn d hd
  cases v with
  | table fields =>
    cases h
    rw [nodeEntries] at hn
    cases hr : Mapping.get? fields "resolve" with
    | none =>
      simp [hr, Field.ofOption] at hn
    | some r =>
      simp only [hr, Field.ofOption, nodesOf] at hn
      split at hn
      · rename_i nodes hnodes
        split at hnodes
        · split at hnodes
          · cases hnodes
            obtain ⟨nodeFields, rfl⟩ := exists_fields_of_mem hn
            obtain ⟨entryFields, rfl⟩ := exists_fields_of_mem hd
            exact kinds_ofFields entryFields
          · cases hnodes
        · cases hnodes
      · cases hn
  | _ => cases h

end ResolverDocument

/-! ### What the table says -/

theorem resolvedKind_eq_ok {source : PackageId} {kind : Option Value} {k : DependencyKind} :
    resolvedKind source kind = .ok k ↔
      ∃ v, kind = some v ∧ DependencyKind.ofValue v = .ok k := by
  unfold resolvedKind
  cases kind with
  | none => simp
  | some v =>
    simp only [Option.some.injEq, exists_eq_left']
    split <;> simp_all

namespace PackageTable

/-- The edge that a table of packages gives for a kind of a dependency entry. -/
structure Resolves (t : PackageTable) (o : Occurrence) (e : Edge) : Prop where
  source : t.lookup o.node.rawId = .ok e.source
  edge : ∃ r, t.resolve e.source o.entry = .ok r ∧ r.edge o.kind = .ok e

theorem Resolves.unique {t : PackageTable} {o : Occurrence} {e f : Edge} (he : t.Resolves o e)
    (hf : t.Resolves o f) : e = f := by
  obtain ⟨r, hr, hedge⟩ := he.edge
  obtain ⟨s, hs, hedge'⟩ := hf.edge
  have source := he.source.symm.trans hf.source
  rw [Except.ok.inj source] at hr
  cases hr.symm.trans hs
  exact Except.ok.inj (hedge.symm.trans hedge')

theorem kindEntries_eq {d : DependencyEntry} {kinds : List (Option Value)}
    (h : d.kindList = .ok kinds) (filled : d.kinds ≠ .given []) : d.kindEntries = kinds := by
  unfold DependencyEntry.kindList at h
  unfold DependencyEntry.kindEntries
  cases hd : d.kinds with
  | absent =>
    rw [hd] at h
    exact Except.ok.inj h
  | malformed =>
    rw [hd] at h
    cases h
  | given ks =>
    rw [hd] at h
    cases ks with
    | nil => exact absurd hd filled
    | cons k ks => exact Except.ok.inj h

variable {t : PackageTable}

theorem forall₂_edgesOfEntries {n : NodeEntry} {source : PackageId}
    (hs : t.lookup n.rawId = .ok source) {ds : List (Option DependencyEntry)} {es : List Edge}
    (h : t.edgesOfEntries source ds = .ok es)
    (filled : ∀ d ∈ ds.reduceOption, d.kinds ≠ .given []) :
    List.Forall₂ t.Resolves
      (ds.reduceOption.flatMap fun d => d.kindEntries.map fun k => ⟨n, d, k⟩) es := by
  obtain ⟨ess, hess, rfl⟩ := edgesOfEntries_eq_ok.1 h
  clear h
  induction hess with
  | nil => exact .nil
  | @cons x first ds ess hx _ ih =>
    obtain ⟨d, rfl, hd⟩ := hx
    rw [List.reduceOption_cons_of_some, List.forall_mem_cons] at filled
    obtain ⟨r, kinds, hr, hk, each⟩ := edgesOf_eq_ok.1 hd
    have hfirst : List.Forall₂ t.Resolves (d.kindEntries.map fun k => ⟨n, d, k⟩) first := by
      rw [kindEntries_eq hk filled.1, List.forall₂_map_left_iff]
      refine each.imp fun k e hedge => ?_
      obtain ⟨hsource, -⟩ := exists_resolve_iff.1 ⟨r, hr, hedge⟩
      exact ⟨hsource ▸ hs, r, hsource ▸ hr, hedge⟩
    rw [List.reduceOption_cons_of_some, List.flatMap_cons, List.flatten_cons]
    exact List.rel_append hfirst (ih filled.2)

theorem forall₂_edgesOfNodes {nodes : List (Option NodeEntry)} {es : List Edge}
    (h : t.edgesOfNodes nodes = .ok es)
    (filled : ∀ n ∈ nodes.reduceOption, ∀ d ∈ n.entries, d.kinds ≠ .given []) :
    List.Forall₂ t.Resolves (nodes.reduceOption.flatMap NodeEntry.occurrences) es := by
  obtain ⟨ess, hess, rfl⟩ := edgesOfNodes_eq_ok.1 h
  clear h
  induction hess with
  | nil => exact .nil
  | @cons x first nodes ess hx _ ih =>
    obtain ⟨n, source, deps, rfl, hs, hd, hentries⟩ := hx
    rw [List.reduceOption_cons_of_some, List.forall_mem_cons] at filled
    have hfirst : List.Forall₂ t.Resolves n.occurrences first := by
      rw [NodeEntry.occurrences, NodeEntry.entries, Field.listed_eq hd]
      refine forall₂_edgesOfEntries hs hentries ?_
      rw [← Field.listed_eq hd]
      exact filled.1
    rw [List.reduceOption_cons_of_some, List.flatMap_cons, List.flatten_cons]
    exact List.rel_append hfirst (ih filled.2)

end PackageTable

namespace ResolverDocument

variable {doc : ResolverDocument}

/-- What the table of distinct packages says is what the document says. -/
theorem resolves_iff_denotes [Whereabouts] (distinct : doc.HasDistinctPackages)
    {rs : List PackageRow}
    (hrs : List.Forall₂ PackageEntry.Reads doc.packageEntries rs) {o : Occurrence} {e : Edge} :
    (PackageTable.ofRows rs).Resolves o e ↔ doc.Denotes o e := by
  have rows := distinct.rows hrs
  -- Both sides speak of the packages that the two identifiers lead to.
  have sourceRead {p : PackageEntry} (hp : doc.Finds o.node.rawId p e.source) :
      (PackageTable.ofRows rs).declarationsOf e.source = p.dependencies.listed := by
    obtain ⟨r, hr, hread, -, same⟩ := hp.reads hrs
    rw [PackageTable.declarationsOf_ofRows rows hr same, Field.listed_eq hread.declared]
  have targetRead {q : PackageEntry} (hq : doc.Finds o.entry.package q e.target) :
      libraryName q.targets.listed =
        .ok (((PackageTable.ofRows rs).graph.package? e.target).bind (·.libName)) := by
    obtain ⟨r, hr, hread, -, same⟩ := hq.reads hrs
    obtain ⟨ts, hts, hlib⟩ := hread.library
    rw [PackageTable.package?_ofRows rows hr same, Field.listed_eq hts]
    exact hlib
  constructor
  · rintro ⟨hs, hedge⟩
    obtain ⟨-, ht, hk, name, hname, halias, hkey, hlib⟩ :=
      PackageTable.exists_resolve_iff.1 hedge
    obtain ⟨p, hp⟩ := (lookup_iff_finds distinct hrs).1 hs
    obtain ⟨q, hq⟩ := (lookup_iff_finds distinct hrs).1 ht
    rw [sourceRead hp] at hkey
    refine ⟨⟨p, hp, name, hname, halias, hkey⟩, ⟨q, hq, ?_⟩, resolvedKind_eq_ok.1 hk⟩
    rw [hlib, targetRead hq]
  · rintro ⟨⟨p, hp, name, hname, halias, hkey⟩, ⟨q, hq, hlib⟩, hk⟩
    refine ⟨(lookup_iff_finds distinct hrs).2 ⟨p, hp⟩, PackageTable.exists_resolve_iff.2
      ⟨rfl, (lookup_iff_finds distinct hrs).2 ⟨q, hq⟩, resolvedKind_eq_ok.2 hk, name, hname,
        halias, ?_, ?_⟩⟩
    · rw [sourceRead hp]
      exact hkey
    · rw [targetRead hq] at hlib
      exact (Except.ok.inj hlib).symm

end ResolverDocument

/-! ### The graph -/

namespace Graph

/-- Whether the edges of a graph are those that a document says, the last one for each key. -/
structure Reflects [Whereabouts] (g : Graph) (doc : ResolverDocument) : Prop where
  dependency_iff : ∀ p es, g.dependencies p = .ok es → ∀ q k name,
    (∃ e ∈ es, e.target.same q = true ∧ e.kind = k ∧ e.name = name) ↔
      ∃ o ∈ doc.occurrences, ∃ e, doc.Denotes o e ∧ e.source.same p = true ∧
        e.target.same q = true ∧ e.kind = k ∧ e.name = name
  single : ∀ p es, g.dependencies p = .ok es → es.Pairwise fun e f =>
    ¬(e.target.same f.target = true ∧ e.kind = f.kind ∧ e.name = f.name)
  last : ∀ p es, g.dependencies p = .ok es → ∀ e ∈ es, ∃ before o after,
    doc.occurrences = before ++ o :: after ∧ doc.Denotes o e ∧
      ∀ o' ∈ after, ∀ f, doc.Denotes o' f → f.sameEntry e = false
  ends : ∀ e ∈ g.edges, g.Knows e.source ∧ g.Knows e.target
  known : ∀ m ∈ g.members, g.Knows m

/-- Whether everything in a graph can be listed, in order and without repetition. -/
structure Lists [Whereabouts] (g : Graph) (doc : ResolverDocument) : Prop where
  dependencies : ∀ p, g.Knows p →
    ∃ es, g.dependencies p = .ok es ∧ es.Pairwise (Precedes Edge.sortKeys?)
  members : ∃ ms infos, g.sortedMembers = .ok ms ∧ ms.mapM g.package = .ok infos ∧
    infos.map (·.id) = ms ∧ ms.Pairwise PackageId.Before ∧
      ∀ m, m ∈ ms ↔ ∃ raw ∈ doc.members.listed, ∃ p, doc.Finds raw p m

end Graph

/-! ### From the document to the graph -/

namespace ResolverDocument

variable {doc : ResolverDocument} {t : PackageTable} {nodes : List (Option NodeEntry)}
  {es : List Edge} {ids : List PackageId}

namespace Yields

variable [Whereabouts]

theorem nodeEntries_eq (h : doc.Yields t nodes es ids) : doc.nodeEntries = nodes.reduceOption := by
  obtain ⟨field, hfield, hnodes⟩ := h.nodesRead
  rw [nodeEntries, hfield]
  exact congrArg List.reduceOption (Field.listed_eq hnodes)

/-- The edges that are taken up are those that the document says, in its order. -/
theorem denotes (h : doc.Yields t nodes es ids) (distinct : doc.HasDistinctPackages)
    (filled : doc.FillsKinds) : List.Forall₂ doc.Denotes doc.occurrences es := by
  obtain ⟨rs, hrs, rfl⟩ := h.exists_rows
  rw [FillsKinds, h.nodeEntries_eq] at filled
  have resolved := PackageTable.forall₂_edgesOfNodes h.edgesRead filled
  rw [← h.nodeEntries_eq] at resolved
  exact resolved.imp fun o e he => (resolves_iff_denotes distinct hrs).1 he

theorem denotes_unique (h : doc.Yields t nodes es ids) (distinct : doc.HasDistinctPackages)
    {o : Occurrence} {e f : Edge} (he : doc.Denotes o e) (hf : doc.Denotes o f) : e = f := by
  obtain ⟨rs, hrs, rfl⟩ := h.exists_rows
  have hre := (resolves_iff_denotes distinct hrs).2 he
  have hrf := (resolves_iff_denotes distinct hrs).2 hf
  exact hre.unique hrf

theorem same_self (h : doc.Yields t nodes es ids) {raw : Value} {id : PackageId}
    (hl : t.lookup raw = .ok id) : id.same id = true := by
  obtain ⟨p, -, hs⟩ := h.sound.knows_of_lookup hl
  exact PackageId.same_trans (PackageId.same_symm hs) hs

theorem sameEntry_self (h : doc.Yields t nodes es ids) {e : Edge} (he : e ∈ es) :
    e.sameEntry e = true := by
  obtain ⟨source, d, kind, hg⟩ := (PackageTable.mem_edgesOfNodes h.edgesRead).1 he
  obtain ⟨n, deps, -, hn, -, -⟩ := hg.listed
  obtain ⟨hsource, htarget, -⟩ := hg.edge_eq
  rw [← hsource] at hn
  exact Edge.sameEntry_iff.2 ⟨h.same_self hn, h.same_self htarget, rfl, rfl⟩

section

variable {g : Graph} (h : doc.Yields t nodes es ids)
  (hg : g = ids.foldl Graph.addMember (es.foldl Graph.addEdge t.graph))

include h hg

theorem mem_edges_iff {e : Edge} : e ∈ g.edges ↔
    ∃ before after, es = before ++ e :: after ∧ ∀ f ∈ after, f.sameEntry e = false := by
  rw [hg, Graph.edges_addMembers]
  exact Graph.mem_addEdges_iff h.sound.noEdges

theorem mem_of_mem_edges {e : Edge} (he : e ∈ g.edges) : e ∈ es := by
  obtain ⟨before, after, rfl, -⟩ := (h.mem_edges_iff hg).1 he
  simp

theorem exists_sameEntry {e : Edge} (he : e ∈ es) : ∃ f ∈ g.edges, f.sameEntry e = true := by
  rw [hg, Graph.edges_addMembers]
  exact Graph.exists_sameEntry_addEdges (.inr ⟨he, h.sameEntry_self he⟩)

theorem distinct_edges : g.edges.Pairwise fun e f => e.sameEntry f = false := by
  rw [hg, Graph.edges_addMembers]
  exact Graph.distinct_addEdges es (by simp [h.sound.noEdges])

theorem lookup_of_mem_members {m : PackageId} (hm : m ∈ g.members) :
    ∃ raw ∈ doc.members.listed, t.lookup raw = .ok m := by
  obtain ⟨raws, hraws, hids⟩ := h.membersRead
  have hmem := (Graph.mem_addMembers (hg ▸ hm)).resolve_left (by simp [h.sound.noMembers])
  rw [Field.listed_eq hraws]
  exact exists_left_of_forall₂ (mapM_eq_ok.1 hids) hmem

theorem exists_same_of_lookup {raw : Value} (hraw : raw ∈ doc.members.listed) {id : PackageId}
    (hl : t.lookup raw = .ok id) : ∃ m ∈ g.members, m.same id = true := by
  obtain ⟨raws, hraws, hids⟩ := h.membersRead
  rw [Field.listed_eq hraws] at hraw
  obtain ⟨id', hmem, hl'⟩ := exists_right_of_forall₂ (mapM_eq_ok.1 hids) hraw
  cases hl.symm.trans hl'
  rw [hg]
  exact Graph.exists_same_addMembers (.inr ⟨hmem, h.same_self hl⟩)

theorem mem_members_iff (distinct : doc.HasDistinctPackages) {m : PackageId} :
    m ∈ g.members ↔ ∃ raw ∈ doc.members.listed, ∃ p, doc.Finds raw p m := by
  have table := h.exists_rows
  constructor
  · intro hm
    obtain ⟨raw, hraw, hl⟩ := h.lookup_of_mem_members hg hm
    obtain ⟨rs, hrs, rfl⟩ := table
    exact ⟨raw, hraw, (lookup_iff_finds distinct hrs).1 hl⟩
  · rintro ⟨raw, hraw, hfinds⟩
    obtain ⟨rs, hrs, rfl⟩ := table
    have hl := (lookup_iff_finds distinct hrs).2 hfinds
    obtain ⟨m', hm', same⟩ := h.exists_same_of_lookup hg hraw hl
    -- Both identities come from rows of the table, and no two rows have the same one.
    obtain ⟨raw', -, hl'⟩ := h.lookup_of_mem_members hg hm'
    obtain ⟨r, hr, rfl⟩ := PackageTable.exists_row_of_lookup hl
    obtain ⟨s, hs, rfl⟩ := PackageTable.exists_row_of_lookup hl'
    rw [(distinct.rows hrs).eq_of_same hs hr same] at hm'
    exact hm'

theorem package_of_mem_members (distinct : doc.HasDistinctPackages) {m : PackageId}
    (hm : m ∈ g.members) : ∃ info, g.package m = .ok info ∧ info.id = m := by
  obtain ⟨raw, -, hl⟩ := h.lookup_of_mem_members hg hm
  have self := h.same_self hl
  have hpackages : g.packages = t.graph.packages := by
    rw [hg, Graph.packages_addMembers, Graph.packages_addEdges]
  obtain ⟨rs, hrs, rfl⟩ := h.exists_rows
  obtain ⟨r, hr, rfl⟩ := PackageTable.exists_row_of_lookup hl
  have hfound := PackageTable.package?_ofRows (distinct.rows hrs) hr self
  refine ⟨r.info, Graph.package_eq_ok.2 ?_, rfl⟩
  rw [Graph.package?, hpackages]
  exact hfound

theorem reflects (distinct : doc.HasDistinctPackages) (filled : doc.FillsKinds)
    (wf : g.WellFormed) : g.Reflects doc := by
  have each := h.denotes distinct filled
  refine ⟨fun p des hdes q k name => ?_, fun p des hdes => ?_, fun p des hdes e he => ?_,
    wf.ends, wf.known⟩
  · constructor
    · rintro ⟨e, he, hq, hk, hn⟩
      obtain ⟨hmem, hp⟩ := (Graph.mem_dependencies hdes e).1 he
      obtain ⟨o, ho, hd⟩ := exists_left_of_forall₂ each (h.mem_of_mem_edges hg hmem)
      exact ⟨o, ho, e, hd, hp, hq, hk, hn⟩
    · rintro ⟨o, ho, e, hd, hp, hq, hk, hn⟩
      obtain ⟨e', he', hd'⟩ := exists_right_of_forall₂ each ho
      cases h.denotes_unique distinct hd hd'
      -- The edge itself may be gone, but one for the same key has its place.
      obtain ⟨f, hf, hentry⟩ := h.exists_sameEntry hg he'
      obtain ⟨hs, ht, hkind, hname⟩ := Edge.sameEntry_iff.1 hentry
      have hdep := (Graph.mem_dependencies hdes f).2 ⟨hf, PackageId.same_trans hs hp⟩
      exact ⟨f, hdep, PackageId.same_trans ht hq, hkind.trans hk, hname.trans hn⟩
  · have apart := (h.distinct_edges hg).sublist (List.filter_sublist (p := (·.source.same p)))
    have perm := sortByKeys?_perm (orWrongType_eq_ok.1 hdes)
    have symm {e f : Edge} (hef : e.sameEntry f = false) : f.sameEntry e = false :=
      Bool.eq_false_iff.2 fun hfe => Bool.eq_false_iff.1 hef (Edge.sameEntry_symm hfe)
    have listed := (perm.pairwise_iff symm).2 apart
    refine listed.imp_of_mem fun {e f} he hf hef => ?_
    rintro ⟨ht, hk, hn⟩
    have hep := ((Graph.mem_dependencies hdes e).1 he).2
    have hfp := ((Graph.mem_dependencies hdes f).1 hf).2
    have hs := PackageId.same_trans hep (PackageId.same_symm hfp)
    rw [Edge.sameEntry_iff.2 ⟨hs, ht, hk, hn⟩] at hef
    cases hef
  · obtain ⟨hmem, -⟩ := (Graph.mem_dependencies hdes e).1 he
    obtain ⟨before, after, rfl, later⟩ := (h.mem_edges_iff hg).1 hmem
    obtain ⟨front, o, rest, hsplit, hd, hrest⟩ := forall₂_split each
    refine ⟨front, o, rest, hsplit, hd, fun o' ho' f hf => ?_⟩
    obtain ⟨f', hf', hd'⟩ := exists_right_of_forall₂ hrest ho'
    cases h.denotes_unique distinct hf hd'
    exact later f hf'

theorem lists (distinct : doc.HasDistinctPackages) (wf : g.WellFormed) (coded : g.IsCoded) :
    g.Lists doc := by
  refine ⟨fun p _ => ?_, ?_⟩
  · exact coded.exists_dependencies (h.distinct_edges hg) p
  · obtain ⟨ms, hms, perm, increasing⟩ := coded.exists_sortedMembers wf.membersDistinct
    have package : ∀ m ∈ ms, ∃ info, g.package m = .ok info ∧ info.id = m := fun m hm =>
      h.package_of_mem_members hg distinct (perm.mem_iff.1 hm)
    obtain ⟨infos, hinfos⟩ := forall₂_of_forall_exists package
    have same : List.Forall₂ (fun i m => i = m) (infos.map (·.id)) ms := by
      rw [List.forall₂_map_left_iff]
      exact hinfos.flip.imp fun info m hi => hi.2
    rw [List.forall₂_eq_eq_eq] at same
    refine ⟨ms, infos, hms, mapM_eq_ok.2 (hinfos.imp fun m info hi => hi.1), same, increasing,
      fun m => ?_⟩
    rw [perm.mem_iff]
    exact h.mem_members_iff hg distinct

end

end Yields

end ResolverDocument

namespace Graph

theorem ofValue_eq_ok [Whereabouts] {v : Value} {g : Graph} : (Graph.ofValue v).result = .ok g ↔
    ∃ doc, ResolverDocument.ofValue? v = some doc ∧ Graph.ofDocument doc = .ok g := by
  unfold ofValue
  cases hdoc : ResolverDocument.ofValue? v with
  | none => simp [Logged.fail]
  | some doc =>
    simp only [Option.some.injEq, exists_eq_left', Logged.result_bind_eq_ok,
      Logged.result_ofExcept, Logged.result_pure, Except.ok.injEq]
    constructor
    · rintro ⟨g', hg', -, -, rfl⟩
      exact hg'
    · intro h
      exact ⟨g, h, (), rfl, rfl⟩

/-- The graph of a value has what the document says and nothing else, for documents without
repeated packages, and all of it can be listed when the names keep code points. -/
theorem reflects_ofValue [Whereabouts] {v : Value} {doc : ResolverDocument} {g : Graph}
    (hdoc : ResolverDocument.ofValue? v = some doc) (h : (Graph.ofValue v).result = .ok g)
    (distinct : doc.HasDistinctPackages) :
    g.Reflects doc ∧ (doc.IsCoded → g.Lists doc) := by
  obtain ⟨doc', hdoc', hgraph⟩ := ofValue_eq_ok.1 h
  cases hdoc.symm.trans hdoc'
  have wf := wellFormed_ofDocument hgraph
  obtain ⟨t, nodes, es, ids, hy, hg⟩ := ofDocument_eq_ok.1 hgraph
  have filled := ResolverDocument.fillsKinds_ofValue? hdoc
  exact ⟨hy.reflects hg distinct filled wf,
    fun coded => hy.lists hg distinct wf (isCoded_ofDocument hgraph coded)⟩

/-- A package from a registry as it stands in a document. -/
def packageValue (name : String) (declared : List Value) (targets : List Value) : Value :=
  .table [("id", .text name), ("name", .text name), ("version", .text "1.0.0"),
    ("manifest_path", .text "/Cargo.toml"), ("source", .text "registry"),
    ("dependencies", .list declared), ("targets", .list targets)]

/-- A member that is named twice, with one dependency that is resolved twice, at first without a
kind, and under two aliases. -/
def logTwice : Value :=
  .table [
    ("packages", .list [
      packageValue "app" [.table [("name", .text "log")]] [],
      packageValue "log" [] [.table [("name", .text "log"), ("kind", .list [.text "lib"])]]]),
    ("resolve", .table [("nodes", .list [.table [("id", .text "app"), ("deps", .list [
      .table [("pkg", .text "log"), ("name", .text "log")],
      .table [("pkg", .text "log"), ("name", .text "logger"),
        ("dep_kinds", .list [.table [("kind", .null)]])]])]])]),
    ("workspace_members", .list [.text "app", .text "app"])]

theorem reflects_logTwice : ∃ doc g, ResolverDocument.ofValue? logTwice = some doc ∧
    (Graph.ofValue logTwice).result = .ok g ∧ g.Reflects doc ∧ g.Lists doc ∧
    g.edges = [⟨registryId "app", registryId "log", .normal, "log", .text "logger",
      some (.text "log")⟩] := by
  let log : Declaration := ⟨some "log", .null, .absent⟩
  let app : NodeEntry := ⟨.text "app", .given [some ⟨.text "log", some (.text "log"), .absent⟩,
    some ⟨.text "log", some (.text "logger"), .given [some .null]⟩]⟩
  let doc : ResolverDocument := {
    packages := .given [some (registryEntry "app" [log] none),
      some (registryEntry "log" [] (some "log"))]
    nodes := .given (.given [some app])
    members := .given [.text "app", .text "app"] }
  let g : Graph := ⟨[registryPackage "app" none, registryPackage "log" (some "log")],
    [⟨registryId "app", registryId "log", .normal, "log", .text "logger", some (.text "log")⟩],
    [registryId "app"]⟩
  have hdoc : ResolverDocument.ofValue? logTwice = some doc := rfl
  have h : (Graph.ofValue logTwice).result = .ok g := rfl
  have entries : doc.packageEntries =
      [("app", [log], none), ("log", [], some "log")].map
        fun p => registryEntry p.1 p.2.1 p.2.2 := rfl
  have distinct : doc.HasDistinctPackages := hasDistinctPackages_of_registry entries (by decide)
  have coded : doc.IsCoded := by
    refine isCoded_of_registry entries ?_ ?_
    · simp only [List.forall_mem_cons, List.not_mem_nil, false_imp_iff, implies_true, and_true]
      exact ⟨Text.isCoded_of_plain (by decide), Text.isCoded_of_plain (by decide)⟩
    · simp [log]
  obtain ⟨reflects, lists⟩ := reflects_ofValue hdoc h distinct
  exact ⟨doc, g, hdoc, h, reflects, lists coded, rfl⟩

end Graph

end UnusedDeps
