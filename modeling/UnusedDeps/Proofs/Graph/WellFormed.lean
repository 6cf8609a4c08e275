import UnusedDeps.Proofs.Graph.Construction

/-!
# Graphs of documents are well formed

The packages of a graph that a document gives are distinct and have keys, its
edges join packages of the graph and its members are such packages. The edges
before they fall together are those of the dependency entries, one for each kind
of an entry.
-/

namespace UnusedDeps

namespace Graph

/-- What holds of every graph that a document gives. -/
structure WellFormed (g : Graph) : Prop where
  keyed : ∀ p ∈ g.packages, p.id.same p.id = true
  distinct : g.packages.Pairwise fun p q => p.id.same q.id = false
  ends : ∀ e ∈ g.edges, g.Knows e.source ∧ g.Knows e.target
  known : ∀ m ∈ g.members, g.Knows m
  membersDistinct : g.members.Pairwise fun m n => m.same n = false

end Graph

/-! ### Package entries -/

/-- What a package entry adds to the table. -/
structure PackageRow where
  info : PackageInfo
  /-- The key of the raw identifier. -/
  key : Key
  declared : List (Option Declaration)

/-- Whether a package entry can be read, and what it says. -/
structure PackageEntry.Reads [Whereabouts] (p : PackageEntry) (r : PackageRow) : Prop where
  identity : p.identity = .ok (r.info.id, r.info.manifestPath)
  key : (p.rawId.getD (.text r.info.id.text)).key? = some r.key
  declared : p.dependencies.listOrEmpty = .ok r.declared
  keyed : r.info.id.keys?.isSome
  library : ∃ ts, p.targets.listOrEmpty = .ok ts ∧ libraryName ts = .ok r.info.libName
  metadata : p.metadata = .ok r.info.metadata

namespace PackageTable

def addRow (t : PackageTable) (r : PackageRow) : PackageTable where
  graph := t.graph.addPackage r.info
  byRawId := (r.key, r.info.id) :: t.byRawId
  declared := (r.info.id, r.declared) :: t.declared

@[simp] theorem graph_addRow (t : PackageTable) (r : PackageRow) :
    (t.addRow r).graph = t.graph.addPackage r.info := rfl

/-- All that a package entry can do to the table. -/
theorem addEntry_eq_ok [Whereabouts] {t t' : PackageTable} {p : PackageEntry} :
    t.addEntry p = .ok t' ↔ ∃ r, p.Reads r ∧ t' = t.addRow r := by
  unfold addEntry
  constructor
  · intro h
    obtain ⟨⟨id, manifest⟩, hid, h⟩ := bind_eq_ok.1 h
    obtain ⟨key, hkey, h⟩ := bind_eq_ok.1 h
    obtain ⟨declared, hdeclared, h⟩ := bind_eq_ok.1 h
    obtain ⟨ks, hks, h⟩ := bind_eq_ok.1 h
    obtain ⟨targets, ht, h⟩ := bind_eq_ok.1 h
    obtain ⟨lib, hlib, h⟩ := bind_eq_ok.1 h
    obtain ⟨metadata, hm, h⟩ := bind_eq_ok.1 h
    have keyed : id.keys?.isSome := by simp [orWrongType_eq_ok.1 hks]
    exact ⟨⟨⟨id, manifest, lib, metadata⟩, key, declared⟩, ⟨hid, orWrongType_eq_ok.1 hkey,
      hdeclared, keyed, ⟨targets, ht, hlib⟩, mapError_eq_ok.1 hm⟩, (pure_eq_ok.1 h).symm⟩
  · rintro ⟨r, hr, rfl⟩
    obtain ⟨targets, ht, hlib⟩ := hr.library
    obtain ⟨ks, hks⟩ := Option.isSome_iff_exists.1 hr.keyed
    exact bind_eq_ok.2 ⟨_, hr.identity, bind_eq_ok.2 ⟨_, orWrongType_eq_ok.2 hr.key,
      bind_eq_ok.2 ⟨_, hr.declared, bind_eq_ok.2 ⟨_, orWrongType_eq_ok.2 hks,
      bind_eq_ok.2 ⟨_, ht, bind_eq_ok.2 ⟨_, hlib, bind_eq_ok.2 ⟨_, mapError_eq_ok.2 hr.metadata,
      rfl⟩⟩⟩⟩⟩⟩⟩

theorem ofEntries_eq_ok [Whereabouts] {t t' : PackageTable} {ps : List (Option PackageEntry)} :
    t.ofEntries ps = .ok t' ↔ ∃ rs,
      List.Forall₂ (fun p r => ∃ q, p = some q ∧ PackageEntry.Reads q r) ps rs ∧
        t' = rs.foldl addRow t := by
  induction ps generalizing t with
  | nil =>
    rw [ofEntries]
    constructor
    · intro h
      exact ⟨[], .nil, (Except.ok.inj h).symm⟩
    · rintro ⟨rs, hrs, rfl⟩
      cases hrs
      rfl
  | cons p ps ih =>
    cases p with
    | none =>
      constructor
      · intro h
        cases h
      · rintro ⟨rs, hrs, -⟩
        cases hrs with
        | cons hp _ =>
          obtain ⟨q, hq, -⟩ := hp
          cases hq
    | some p =>
      rw [ofEntries, bind_eq_ok]
      constructor
      · rintro ⟨u, hu, h⟩
        obtain ⟨r, hr, rfl⟩ := addEntry_eq_ok.1 hu
        obtain ⟨rs, hrs, rfl⟩ := ih.1 h
        exact ⟨r :: rs, .cons ⟨p, rfl, hr⟩ hrs, rfl⟩
      · rintro ⟨rs, hrs, rfl⟩
        cases hrs with
        | cons hp hrs =>
          obtain ⟨q, hq, hr⟩ := hp
          cases hq
          exact ⟨_, addEntry_eq_ok.2 ⟨_, hr, rfl⟩, ih.2 ⟨_, hrs, rfl⟩⟩

/-- What holds of the table after any number of package entries. -/
structure Sound (t : PackageTable) : Prop where
  wellFormed : t.graph.WellFormed
  noEdges : t.graph.edges = []
  noMembers : t.graph.members = []
  known : ∀ e ∈ t.byRawId, t.graph.Knows e.2

theorem sound_empty : empty.Sound where
  wellFormed := {
    keyed := fun _ h => absurd h List.not_mem_nil
    distinct := List.Pairwise.nil
    ends := fun _ h => absurd h List.not_mem_nil
    known := fun _ h => absurd h List.not_mem_nil
    membersDistinct := List.Pairwise.nil }
  noEdges := rfl
  noMembers := rfl
  known := fun _ h => absurd h List.not_mem_nil

theorem Sound.addEntry [Whereabouts] {t t' : PackageTable} {p : PackageEntry} (ht : t.Sound)
    (h : t.addEntry p = .ok t') : t'.Sound := by
  obtain ⟨r, hr, rfl⟩ := addEntry_eq_ok.1 h
  refine ⟨⟨fun q hq => ?_, Graph.distinct_addPackage _ ht.wellFormed.distinct, ?_, ?_, ?_⟩,
    ht.noEdges, ht.noMembers, fun e he => ?_⟩
  · rcases Graph.mem_addPackage hq with hq | rfl
    · exact ht.wellFormed.keyed q hq
    · exact PackageId.same_self hr.keyed
  · simp [ht.noEdges]
  · simp [ht.noMembers]
  · simp [ht.noMembers]
  · rcases List.mem_cons.1 he with rfl | he
    · exact ⟨_, Graph.mem_addPackage_self _ _, PackageId.same_self hr.keyed⟩
    · exact (ht.known e he).addPackage _

theorem Sound.ofEntries [Whereabouts] {t t' : PackageTable} {ps : List (Option PackageEntry)}
    (ht : t.Sound) (h : t.ofEntries ps = .ok t') : t'.Sound := by
  induction ps generalizing t with
  | nil => exact Except.ok.inj h ▸ ht
  | cons p ps ih =>
    cases p with
    | none => cases h
    | some p =>
      obtain ⟨u, hu, h⟩ := bind_eq_ok.1 h
      exact ih (ht.addEntry hu) h

theorem mem_byRawId_of_lookup {t : PackageTable} {raw : Value} {id : PackageId}
    (h : t.lookup raw = .ok id) : ∃ key, (key, id) ∈ t.byRawId := by
  unfold lookup at h
  obtain ⟨key, -, h⟩ := bind_eq_ok.1 h
  cases hl : t.byRawId.lookup key with
  | none =>
    rw [hl] at h
    cases h
  | some found =>
    rw [hl] at h
    obtain ⟨before, after, hsplit, -⟩ := List.lookup_eq_some_iff.1 hl
    refine ⟨key, ?_⟩
    rw [hsplit, ← pure_eq_ok.1 h]
    simp

theorem Sound.knows_of_lookup {t : PackageTable} (ht : t.Sound) {raw : Value} {id : PackageId}
    (h : t.lookup raw = .ok id) : t.graph.Knows id := by
  obtain ⟨key, hmem⟩ := mem_byRawId_of_lookup h
  exact ht.known _ hmem

/-! ### Dependency entries -/

/-- A dependency entry of a node, one of its kinds, and the edge that the two of them give. -/
structure Gives (t : PackageTable) (nodes : List (Option NodeEntry)) (source : PackageId)
    (d : DependencyEntry) (kind : Option Value) (e : Edge) : Prop where
  listed : ∃ n deps, some n ∈ nodes ∧ t.lookup n.rawId = .ok source ∧
    n.deps.listOrEmpty = .ok deps ∧ some d ∈ deps
  ofKind : ∃ kinds, d.kindList = .ok kinds ∧ kind ∈ kinds
  resolved : ∃ r, t.resolve source d = .ok r ∧ r.edge kind = .ok e

theorem edgesOf_eq_ok {t : PackageTable} {source : PackageId} {d : DependencyEntry}
    {es : List Edge} : t.edgesOf source d = .ok es ↔ ∃ r kinds, t.resolve source d = .ok r ∧
      d.kindList = .ok kinds ∧ List.Forall₂ (fun k e => r.edge k = .ok e) kinds es := by
  unfold edgesOf
  simp only [bind_eq_ok, mapM_eq_ok]
  constructor
  · rintro ⟨r, hr, kinds, hk, h⟩
    exact ⟨r, kinds, hr, hk, h⟩
  · rintro ⟨r, kinds, hr, hk, h⟩
    exact ⟨r, hr, kinds, hk, h⟩

theorem edgesOfEntries_eq_ok {t : PackageTable} {source : PackageId}
    {ds : List (Option DependencyEntry)} {es : List Edge} :
    t.edgesOfEntries source ds = .ok es ↔ ∃ ess,
      List.Forall₂ (fun x es => ∃ d, x = some d ∧ t.edgesOf source d = .ok es) ds ess ∧
        es = ess.flatten := by
  induction ds generalizing es with
  | nil =>
    rw [edgesOfEntries]
    simp [eq_comm]
  | cons x ds ih =>
    simp only [List.forall₂_cons_left_iff]
    cases x with
    | none => simp [edgesOfEntries]
    | some d =>
      simp only [edgesOfEntries, bind_eq_ok, pure_eq_ok, ih]
      constructor
      · rintro ⟨first, hf, rest, ⟨ess, hess, rfl⟩, rfl⟩
        exact ⟨first :: ess, ⟨first, ess, ⟨d, rfl, hf⟩, hess, rfl⟩, rfl⟩
      · rintro ⟨-, ⟨first, ess, ⟨d', hd, hf⟩, hess, rfl⟩, rfl⟩
        cases hd
        exact ⟨first, hf, ess.flatten, ⟨ess, hess, rfl⟩, rfl⟩

theorem edgesOfNodes_eq_ok {t : PackageTable} {nodes : List (Option NodeEntry)} {es : List Edge} :
    t.edgesOfNodes nodes = .ok es ↔ ∃ ess,
      List.Forall₂ (fun x es => ∃ n source deps, x = some n ∧ t.lookup n.rawId = .ok source ∧
        n.deps.listOrEmpty = .ok deps ∧ t.edgesOfEntries source deps = .ok es) nodes ess ∧
        es = ess.flatten := by
  induction nodes generalizing es with
  | nil =>
    rw [edgesOfNodes]
    simp [eq_comm]
  | cons x nodes ih =>
    simp only [List.forall₂_cons_left_iff]
    cases x with
    | none => simp [edgesOfNodes]
    | some n =>
      simp only [edgesOfNodes, bind_eq_ok, pure_eq_ok, ih]
      constructor
      · rintro ⟨source, hs, deps, hd, first, hf, rest, ⟨ess, hess, rfl⟩, rfl⟩
        exact ⟨first :: ess, ⟨first, ess, ⟨n, source, deps, rfl, hs, hd, hf⟩, hess, rfl⟩, rfl⟩
      · rintro ⟨-, ⟨first, ess, ⟨n', source, deps, hn, hs, hd, hf⟩, hess, rfl⟩, rfl⟩
        cases hn
        exact ⟨source, hs, deps, hd, first, hf, ess.flatten, ⟨ess, hess, rfl⟩, rfl⟩

theorem mem_edgesOfEntries {t : PackageTable} {source : PackageId}
    {ds : List (Option DependencyEntry)} {es : List Edge}
    (h : t.edgesOfEntries source ds = .ok es) {e : Edge} :
    e ∈ es ↔ ∃ d kinds kind r, some d ∈ ds ∧ d.kindList = .ok kinds ∧ kind ∈ kinds ∧
      t.resolve source d = .ok r ∧ r.edge kind = .ok e := by
  obtain ⟨ess, hess, rfl⟩ := edgesOfEntries_eq_ok.1 h
  rw [List.mem_flatten]
  constructor
  · rintro ⟨es, hes, he⟩
    obtain ⟨x, hx, d, rfl, hd⟩ := exists_left_of_forall₂ hess hes
    obtain ⟨r, kinds, hr, hk, each⟩ := edgesOf_eq_ok.1 hd
    obtain ⟨kind, hmem, hedge⟩ := exists_left_of_forall₂ each he
    exact ⟨d, kinds, kind, r, hx, hk, hmem, hr, hedge⟩
  · rintro ⟨d, kinds, kind, r, hx, hk, hmem, hr, hedge⟩
    obtain ⟨es, hes, d', hd', hd⟩ := exists_right_of_forall₂ hess hx
    cases hd'
    obtain ⟨r', kinds', hr', hk', each⟩ := edgesOf_eq_ok.1 hd
    cases hk.symm.trans hk'
    cases hr.symm.trans hr'
    obtain ⟨e', he', hedge'⟩ := exists_right_of_forall₂ each hmem
    cases hedge.symm.trans hedge'
    exact ⟨es, hes, he'⟩

theorem mem_edgesOfNodes {t : PackageTable} {nodes : List (Option NodeEntry)} {es : List Edge}
    (h : t.edgesOfNodes nodes = .ok es) {e : Edge} :
    e ∈ es ↔ ∃ source d kind, t.Gives nodes source d kind e := by
  obtain ⟨ess, hess, rfl⟩ := edgesOfNodes_eq_ok.1 h
  rw [List.mem_flatten]
  constructor
  · rintro ⟨es, hes, he⟩
    obtain ⟨x, hx, n, source, deps, rfl, hs, hd, hentries⟩ := exists_left_of_forall₂ hess hes
    obtain ⟨d, kinds, kind, r, hmem, hk, hkmem, hr, hedge⟩ := (mem_edgesOfEntries hentries).1 he
    exact ⟨source, d, kind, ⟨n, deps, hx, hs, hd, hmem⟩, ⟨kinds, hk, hkmem⟩, r, hr, hedge⟩
  · rintro ⟨source, d, kind, ⟨n, deps, hx, hs, hd, hmem⟩, ⟨kinds, hk, hkmem⟩, r, hr, hedge⟩
    obtain ⟨es, hes, n', source', deps', hn', hs', hd', hentries⟩ := exists_right_of_forall₂ hess hx
    cases hn'
    cases hs.symm.trans hs'
    cases hd.symm.trans hd'
    exact ⟨es, hes, (mem_edgesOfEntries hentries).2
      ⟨d, kinds, kind, r, hmem, hk, hkmem, hr, hedge⟩⟩

/-- What a kind of a dependency entry says of an edge, the key of the manifest included. -/
theorem exists_resolve_iff {t : PackageTable} {source : PackageId} {d : DependencyEntry}
    {kind : Option Value} {e : Edge} :
    (∃ r, t.resolve source d = .ok r ∧ r.edge kind = .ok e) ↔
      e.source = source ∧ t.lookup d.package = .ok e.target ∧
      resolvedKind source kind = .ok e.kind ∧ ∃ name, e.target.name = .text name ∧
      e.externName = d.name.getD (.text (Text.underscored name)) ∧
      nameInManifest (t.declarationsOf source) name e.kind e.externName = .ok e.name ∧
      e.targetLib = (t.graph.package? e.target).bind (·.libName) := by
  constructor
  · rintro ⟨r, hr, he⟩
    obtain ⟨target, ht, hr⟩ := bind_eq_ok.1 hr
    obtain ⟨k, hk, he⟩ := bind_eq_ok.1 he
    obtain ⟨n, hn, he⟩ := bind_eq_ok.1 he
    cases hname : target.name with
    | text name =>
      simp only [hname] at hr
      cases pure_eq_ok.1 hr
      cases pure_eq_ok.1 he
      exact ⟨rfl, ht, hk, name, hname, rfl, hn, rfl⟩
    | _ => simp only [hname, reduceCtorEq, throw, throwThe, MonadExceptOf.throw] at hr
  · obtain ⟨esource, target, k, n, externName, lib⟩ := e
    rintro ⟨rfl, ht, hk, name, hname, halias, hn, hlib⟩
    dsimp only at ht hk hname halias hn hlib
    refine ⟨⟨esource, target, name, externName, lib, t.declarationsOf esource⟩, ?_, ?_⟩
    · refine bind_eq_ok.2 ⟨target, ht, ?_⟩
      rw [hname, halias, hlib]
      rfl
    · exact bind_eq_ok.2 ⟨k, hk, bind_eq_ok.2 ⟨n, hn, rfl⟩⟩

theorem Gives.edge_eq {t : PackageTable} {nodes : List (Option NodeEntry)} {source : PackageId}
    {d : DependencyEntry} {kind : Option Value} {e : Edge} (h : t.Gives nodes source d kind e) :
    e.source = source ∧ t.lookup d.package = .ok e.target ∧
      resolvedKind source kind = .ok e.kind ∧ ∃ name, e.target.name = .text name ∧
      e.externName = d.name.getD (.text (Text.underscored name)) ∧
      nameInManifest (t.declarationsOf source) name e.kind e.externName = .ok e.name ∧
      e.targetLib = (t.graph.package? e.target).bind (·.libName) :=
  exists_resolve_iff.1 h.resolved

end PackageTable

/-! ### Documents -/

/-- The stages in which a document gives a graph: the table of its packages, its nodes, the edges
of their entries, and the identities of the members. -/
structure ResolverDocument.Yields [Whereabouts] (doc : ResolverDocument) (t : PackageTable)
    (nodes : List (Option NodeEntry)) (es : List Edge) (ids : List PackageId) : Prop where
  packagesRead : ∃ ps, doc.packages.listOrEmpty = .ok ps ∧ PackageTable.empty.ofEntries ps = .ok t
  nodesRead : ∃ field, doc.nodes = .given field ∧ field.listOrEmpty = .ok nodes
  edgesRead : t.edgesOfNodes nodes = .ok es
  membersRead : ∃ raws, doc.members.listOrEmpty = .ok raws ∧ raws.mapM t.lookup = .ok ids

/-- A dependency entry of a document, one of its kinds, and the edge that the two of them give. -/
def ResolverDocument.Gives [Whereabouts] (doc : ResolverDocument) (source : PackageId)
    (d : DependencyEntry) (kind : Option Value) (e : Edge) : Prop :=
  ∃ t nodes es ids, doc.Yields t nodes es ids ∧ t.Gives nodes source d kind e

theorem Graph.ofDocument_eq_ok [Whereabouts] {doc : ResolverDocument} {g : Graph} :
    Graph.ofDocument doc = .ok g ↔ ∃ t nodes es ids, doc.Yields t nodes es ids ∧
      g = ids.foldl addMember (es.foldl addEdge t.graph) := by
  unfold ofDocument
  constructor
  · intro h
    obtain ⟨ps, hps, h⟩ := bind_eq_ok.1 h
    obtain ⟨t, ht, h⟩ := bind_eq_ok.1 h
    cases hn : doc.nodes with
    | absent => simp only [hn, reduceCtorEq, throw, throwThe, MonadExceptOf.throw] at h
    | malformed => simp only [hn, reduceCtorEq, throw, throwThe, MonadExceptOf.throw] at h
    | given field =>
      rw [hn] at h
      obtain ⟨nodes, hnodes, h⟩ := bind_eq_ok.1 h
      obtain ⟨es, hes, h⟩ := bind_eq_ok.1 h
      obtain ⟨raws, hraws, h⟩ := bind_eq_ok.1 h
      obtain ⟨ids, hids, h⟩ := bind_eq_ok.1 h
      exact ⟨t, nodes, es, ids, ⟨⟨ps, hps, ht⟩, ⟨field, hn, hnodes⟩, hes, raws, hraws, hids⟩,
        (pure_eq_ok.1 h).symm⟩
  · rintro ⟨t, nodes, es, ids, ⟨⟨ps, hps, ht⟩, ⟨field, hn, hnodes⟩, hes, raws, hraws, hids⟩, rfl⟩
    refine bind_eq_ok.2 ⟨ps, hps, bind_eq_ok.2 ⟨t, ht, ?_⟩⟩
    rw [hn]
    exact bind_eq_ok.2 ⟨nodes, hnodes, bind_eq_ok.2 ⟨es, hes, bind_eq_ok.2 ⟨raws, hraws,
      bind_eq_ok.2 ⟨ids, hids, rfl⟩⟩⟩⟩

theorem ResolverDocument.Yields.unique [Whereabouts] {doc : ResolverDocument} {t t' : PackageTable}
    {nodes nodes' : List (Option NodeEntry)} {es es' : List Edge} {ids ids' : List PackageId}
    (h : doc.Yields t nodes es ids) (h' : doc.Yields t' nodes' es' ids') :
    t = t' ∧ nodes = nodes' ∧ es = es' ∧ ids = ids' := by
  obtain ⟨⟨ps, hps, ht⟩, ⟨field, hn, hnodes⟩, hes, raws, hraws, hids⟩ := h
  obtain ⟨⟨ps', hps', ht'⟩, ⟨field', hn', hnodes'⟩, hes', raws', hraws', hids'⟩ := h'
  cases hps.symm.trans hps'
  cases ht.symm.trans ht'
  cases hn.symm.trans hn'
  cases hnodes.symm.trans hnodes'
  cases hes.symm.trans hes'
  cases hraws.symm.trans hraws'
  cases hids.symm.trans hids'
  exact ⟨rfl, rfl, rfl, rfl⟩

theorem ResolverDocument.Yields.sound [Whereabouts] {doc : ResolverDocument} {t : PackageTable}
    {nodes : List (Option NodeEntry)} {es : List Edge} {ids : List PackageId}
    (h : doc.Yields t nodes es ids) : t.Sound := by
  obtain ⟨ps, -, ht⟩ := h.packagesRead
  exact PackageTable.sound_empty.ofEntries ht

namespace Graph

theorem wellFormed_ofDocument [Whereabouts] {doc : ResolverDocument} {g : Graph}
    (h : Graph.ofDocument doc = .ok g) : g.WellFormed := by
  obtain ⟨t, nodes, es, ids, hy, rfl⟩ := ofDocument_eq_ok.1 h
  have ht := hy.sound
  have knows : ∀ {raw id}, t.lookup raw = .ok id →
      (ids.foldl addMember (es.foldl addEdge t.graph)).Knows id := by
    intro raw id hl
    obtain ⟨p, hp, hs⟩ := ht.knows_of_lookup hl
    exact ⟨p, by simpa using hp, hs⟩
  refine ⟨?_, ?_, fun e he => ?_, fun m hm => ?_, ?_⟩
  · simpa using ht.wellFormed.keyed
  · simpa using ht.wellFormed.distinct
  · rw [edges_addMembers] at he
    have hes := (mem_addEdges he).resolve_left (by simp [ht.noEdges])
    obtain ⟨source, d, kind, hg⟩ := (PackageTable.mem_edgesOfNodes hy.edgesRead).1 hes
    obtain ⟨n, deps, -, hn, -, -⟩ := hg.listed
    obtain ⟨hsource, htarget, -⟩ := hg.edge_eq
    exact ⟨hsource ▸ knows hn, knows htarget⟩
  · obtain ⟨raws, -, hids⟩ := hy.membersRead
    have hm := (mem_addMembers hm).resolve_left (by simp [ht.noMembers])
    obtain ⟨raw, -, hraw⟩ := exists_left_of_forall₂ (mapM_eq_ok.1 hids) hm
    exact knows hraw
  · exact distinct_addMembers ids (by simp [ht.noMembers])

/-- Every entry of a document is in its graph, if only through a later one for the same key. -/
theorem exists_edge_of_gives [Whereabouts] {doc : ResolverDocument} {g : Graph}
    (h : Graph.ofDocument doc = .ok g) {source : PackageId} {d : DependencyEntry}
    {kind : Option Value} {e : Edge} (hg : doc.Gives source d kind e) :
    ∃ f ∈ g.edges, f.sameEntry e = true := by
  obtain ⟨t, nodes, es, ids, hy, rfl⟩ := ofDocument_eq_ok.1 h
  obtain ⟨t', nodes', es', ids', hy', hg⟩ := hg
  obtain ⟨rfl, rfl, rfl, rfl⟩ := hy.unique hy'
  have hmem : e ∈ es := (PackageTable.mem_edgesOfNodes hy.edgesRead).2 ⟨source, d, kind, hg⟩
  obtain ⟨n, deps, -, hn, -, -⟩ := hg.listed
  obtain ⟨hsource, htarget, -⟩ := hg.edge_eq
  have self : ∀ {raw id}, t.lookup raw = .ok id → id.same id = true := fun hl => by
    obtain ⟨p, -, hs⟩ := hy.sound.knows_of_lookup hl
    exact PackageId.same_trans (PackageId.same_symm hs) hs
  have hself : e.sameEntry e = true :=
    Edge.sameEntry_iff.2 ⟨hsource ▸ self hn, self htarget, rfl, rfl⟩
  rw [edges_addMembers]
  exact exists_sameEntry_addEdges (.inr ⟨hmem, hself⟩)

end Graph

end UnusedDeps
