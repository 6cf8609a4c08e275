import UnusedDeps.Proofs.Graph.Fidelity
import UnusedDeps.Proofs.Rearranged
import UnusedDeps.Proofs.Verdict

/-!
# The order of a document does not matter

The arrays of a document are read one entry after another, and a later entry can
replace an earlier one. Main statement: `same_ofDocument`. When no two package
entries, nodes or aliases are for the same thing, nothing is replaced, so a
document and any rearrangement of it are both accepted or both refused, and the
graphs of the two have the same listings and the same analyses.
-/

namespace UnusedDeps

/-! ### Rearranged documents -/

structure DependencyEntry.Reorders (d d' : DependencyEntry) : Prop where
  package : d.package = d'.package
  name : d.name = d'.name
  kinds : Field.Rel List.Perm d.kinds d'.kinds

structure NodeEntry.Reorders (n n' : NodeEntry) : Prop where
  rawId : n.rawId = n'.rawId
  deps : Field.Rel (Rearranged (Option.Rel DependencyEntry.Reorders)) n.deps n'.deps

/-- Whether two documents differ only in the order of the packages, the nodes, their dependency
entries and the kinds of these, and in the order and the repetition of the members. -/
structure ResolverDocument.Reorders (doc doc' : ResolverDocument) : Prop where
  packages : Field.Rel List.Perm doc.packages doc'.packages
  nodes : Field.Rel (Field.Rel (Rearranged (Option.Rel NodeEntry.Reorders))) doc.nodes doc'.nodes
  members : Field.Rel (fun xs ys => ∀ v, v ∈ xs ↔ v ∈ ys) doc.members doc'.members

theorem DependencyEntry.Reorders.symm {d d' : DependencyEntry} (h : d.Reorders d') :
    d'.Reorders d :=
  ⟨h.package.symm, h.name.symm, h.kinds.symm List.Perm.symm⟩

theorem NodeEntry.Reorders.symm {n n' : NodeEntry} (h : n.Reorders n') : n'.Reorders n :=
  ⟨h.rawId.symm, h.deps.symm fun hd =>
    hd.symm fun he => Option.Rel.symm_of DependencyEntry.Reorders.symm he⟩

namespace ResolverDocument

variable {doc doc' : ResolverDocument}

theorem Reorders.symm (h : doc.Reorders doc') : doc'.Reorders doc where
  packages := h.packages.symm List.Perm.symm
  nodes := h.nodes.symm fun hf => hf.symm fun hn =>
    hn.symm fun he => Option.Rel.symm_of NodeEntry.Reorders.symm he
  members := h.members.symm fun hm v => (hm v).symm

theorem Reorders.packageEntries (h : doc.Reorders doc') :
    doc.packageEntries.Perm doc'.packageEntries := by
  have perm : doc.packages.listed.Perm doc'.packages.listed := h.packages.listed .nil
  exact perm.filterMap id

theorem HasDistinctPackages.reorders [Whereabouts] (distinct : doc.HasDistinctPackages)
    (h : doc.Reorders doc') : doc'.HasDistinctPackages := by
  refine (h.packageEntries.pairwise_iff ?_).1 distinct
  intro p q apart a m b n ha hb
  obtain ⟨hid, hraw⟩ := apart b n a m hb ha
  refine ⟨by rw [PackageId.same_comm, hid], Bool.eq_false_iff.2 fun hs => ?_⟩
  rw [Value.sameKey_symm hs] at hraw
  cases hraw

/-- Whether no two nodes are of one package. -/
def HasDistinctNodes [Whereabouts] (doc : ResolverDocument) : Prop :=
  doc.nodeEntries.Pairwise fun n m => ∀ p a q b,
    doc.Finds n.rawId p a → doc.Finds m.rawId q b → a.same b = false

/-- Whether the entries of a node for one key and target have one alias. -/
def HasSettledAliases [Whereabouts] (doc : ResolverDocument) : Prop :=
  ∀ n ∈ doc.nodeEntries, ∀ o ∈ n.occurrences, ∀ o' ∈ n.occurrences, ∀ e f,
    doc.Denotes o e → doc.Denotes o' f → e.sameEntry f = true → e.externName = f.externName

end ResolverDocument

/-! ### Tables of the same packages -/

theorem PackageId.find?_same_perm {α : Type} {key : α → PackageId} {xs ys : List α}
    (perm : xs.Perm ys) (distinct : xs.Pairwise fun a b => (key a).same (key b) = false)
    (p : PackageId) :
    xs.find? (fun a => (key a).same p) = ys.find? (fun a => (key a).same p) := by
  have symm {a b : α} (h : (key a).same (key b) = false) : (key b).same (key a) = false := by
    rw [PackageId.same_comm, h]
  have distinct' := (perm.pairwise_iff symm).1 distinct
  cases hx : xs.find? fun a => (key a).same p with
  | some x =>
    have hs : (key x).same p = true := by simpa using List.find?_some hx
    have hmem := perm.mem_iff.1 (List.mem_of_find?_eq_some hx)
    exact (PackageId.find?_same_eq distinct' hmem hs).symm
  | none =>
    rw [List.find?_eq_none] at hx
    refine (List.find?_eq_none.2 fun y hy => ?_).symm
    exact hx y (perm.mem_iff.2 hy)

namespace PackageTable

/-- Whether two tables say the same of every identifier and every package. -/
structure Agrees (t t' : PackageTable) : Prop where
  lookup : ∀ raw, t.lookup raw = t'.lookup raw
  declarationsOf : ∀ id, t.declarationsOf id = t'.declarationsOf id
  package? : ∀ id, t.graph.package? id = t'.graph.package? id

theorem agrees_ofRows {rs rs' : List PackageRow} (distinct : PackageRow.Distinct rs)
    (perm : rs.Perm rs') : (ofRows rs).Agrees (ofRows rs') := by
  have distinct' := distinct.perm perm
  refine ⟨fun raw => ?_, fun id => ?_, fun id => ?_⟩
  · have byKey (k : Key) :
        (ofRows rs).byRawId.lookup k = (ofRows rs').byRawId.lookup k := by
      refine Option.ext fun id => ?_
      rw [byRawId_lookup_ofRows distinct, byRawId_lookup_ofRows distinct']
      simp only [perm.mem_iff]
    unfold PackageTable.lookup
    simp only [byKey]
  · have declared : (ofRows rs).declared.Perm (ofRows rs').declared := by
      rw [ofRows, ofRows, declared_addRows, declared_addRows]
      refine List.Perm.append_right _ ?_
      exact (List.reverse_perm _).trans ((perm.map _).trans (List.reverse_perm _).symm)
    unfold PackageTable.declarationsOf
    rw [PackageId.find?_same_perm declared (distinct_declared distinct)]
  · have packages : (ofRows rs).graph.packages.Perm (ofRows rs').graph.packages := by
      rw [packages_ofRows distinct, packages_ofRows distinct']
      exact perm.map _
    exact PackageId.find?_same_perm packages (distinct_packages distinct) id

variable {t t' : PackageTable}

theorem Agrees.edgesOf (h : t.Agrees t') (source : PackageId) (d : DependencyEntry) :
    t.edgesOf source d = t'.edgesOf source d := by
  unfold PackageTable.edgesOf resolve
  simp only [h.lookup, h.declarationsOf, h.package?]

/-! ### Edges of rearranged entries -/

theorem kindList_reorders {d d' : DependencyEntry} (hd : d.Reorders d')
    {kinds : List (Option Value)} (h : d.kindList = .ok kinds) :
    ∃ kinds', d'.kindList = .ok kinds' ∧ kinds.Perm kinds' := by
  obtain ⟨package, name, field⟩ := d
  obtain ⟨package', name', field'⟩ := d'
  unfold DependencyEntry.kindList at h ⊢
  have hfield : Field.Rel List.Perm field field' := hd.kinds
  cases hfield with
  | absent =>
    cases h
    exact ⟨_, rfl, .refl _⟩
  | malformed => cases h
  | given perm =>
    cases h
    exact ⟨_, rfl, perm⟩

theorem edgesOf_reorders {d d' : DependencyEntry} (hd : d.Reorders d') {source : PackageId}
    {es : List Edge} (h : t.edgesOf source d = .ok es) :
    ∃ es', t.edgesOf source d' = .ok es' ∧ es'.Perm es := by
  obtain ⟨r, kinds, hr, hk, each⟩ := edgesOf_eq_ok.1 h
  have resolved : t.resolve source d' = .ok r := by
    unfold resolve at hr ⊢
    rw [← hd.package, ← hd.name]
    exact hr
  obtain ⟨kinds', hk', perm⟩ := kindList_reorders hd hk
  obtain ⟨es', hes', hperm⟩ := forall₂_of_perm perm each
  exact ⟨es', edgesOf_eq_ok.2 ⟨r, kinds', resolved, hk', hes'⟩, hperm⟩

theorem edgesOfEntries_reorders {source : PackageId} {ds ds' : List (Option DependencyEntry)}
    (hds : Rearranged (Option.Rel DependencyEntry.Reorders) ds ds') {es : List Edge}
    (h : t.edgesOfEntries source ds = .ok es) :
    ∃ es', t.edgesOfEntries source ds' = .ok es' ∧ es'.Perm es := by
  obtain ⟨ess, hess, rfl⟩ := edgesOfEntries_eq_ok.1 h
  obtain ⟨ess', hess', perm⟩ := hds.exists_flatten
    (T := fun x es => ∃ d, x = some d ∧ t.edgesOf source d = .ok es) (fun x y es hxy hx => by
      obtain ⟨d, rfl, hd⟩ := hx
      cases hxy with
      | some hdd =>
        obtain ⟨es', hes', hperm⟩ := edgesOf_reorders hdd hd
        exact ⟨es', ⟨_, rfl, hes'⟩, hperm⟩) hess
  exact ⟨_, edgesOfEntries_eq_ok.2 ⟨ess', hess', rfl⟩, perm⟩

theorem edgesOfNodes_reorders {nodes nodes' : List (Option NodeEntry)}
    (hnodes : Rearranged (Option.Rel NodeEntry.Reorders) nodes nodes') {es : List Edge}
    (h : t.edgesOfNodes nodes = .ok es) :
    ∃ es', t.edgesOfNodes nodes' = .ok es' ∧ es'.Perm es := by
  obtain ⟨ess, hess, rfl⟩ := edgesOfNodes_eq_ok.1 h
  obtain ⟨ess', hess', perm⟩ := hnodes.exists_flatten
    (T := fun x es => ∃ n source deps, x = some n ∧ t.lookup n.rawId = .ok source ∧
      n.deps.listOrEmpty = .ok deps ∧ t.edgesOfEntries source deps = .ok es)
    (fun x y es hxy hx => by
      obtain ⟨n, source, deps, rfl, hs, hd, hentries⟩ := hx
      cases hxy with
      | some hnn =>
        obtain ⟨deps', hd', hdeps⟩ := hnn.deps.listOrEmpty (.nil _) hd
        obtain ⟨es', hes', hperm⟩ := edgesOfEntries_reorders hdeps hentries
        exact ⟨es', ⟨_, source, deps', rfl, hnn.rawId ▸ hs, hd', hes'⟩, hperm⟩) hess
  exact ⟨_, edgesOfNodes_eq_ok.2 ⟨ess', hess', rfl⟩, perm⟩

theorem Agrees.edgesOfEntries (h : t.Agrees t') (source : PackageId)
    (ds : List (Option DependencyEntry)) : t.edgesOfEntries source ds = t'.edgesOfEntries source ds := by
  induction ds with
  | nil => rfl
  | cons x ds ih =>
    cases x with
    | none => rfl
    | some d => rw [PackageTable.edgesOfEntries, PackageTable.edgesOfEntries, h.edgesOf, ih]

theorem Agrees.edgesOfNodes (h : t.Agrees t') (nodes : List (Option NodeEntry)) :
    t.edgesOfNodes nodes = t'.edgesOfNodes nodes := by
  induction nodes with
  | nil => rfl
  | cons x nodes ih =>
    cases x with
    | none => rfl
    | some n =>
      rw [PackageTable.edgesOfNodes, PackageTable.edgesOfNodes, h.lookup, ih]
      simp only [h.edgesOfEntries]

end PackageTable

/-! ### Rearranged documents are accepted alike -/

namespace ResolverDocument

variable {doc doc' : ResolverDocument} {t : PackageTable} {nodes : List (Option NodeEntry)}
  {es : List Edge} {ids : List PackageId}

/-- What a rearranged document yields: the rows of the packages and the edges in another order, and
the same members. -/
theorem Yields.reorders [Whereabouts] (h : doc.Yields t nodes es ids)
    (distinct : doc.HasDistinctPackages) (hdoc : doc.Reorders doc') : ∃ rs rs' nodes' es' ids',
      t = PackageTable.ofRows rs ∧ PackageRow.Distinct rs ∧ rs'.Perm rs ∧ es'.Perm es ∧
      (∀ id, id ∈ ids' ↔ id ∈ ids) ∧ doc'.Yields (PackageTable.ofRows rs') nodes' es' ids' := by
  obtain ⟨ps, hps, htable⟩ := h.packagesRead
  obtain ⟨rs, hread, rfl⟩ := PackageTable.ofEntries_eq_ok.1 htable
  have rows : PackageRow.Distinct rs := by
    refine distinct.rows ?_
    rw [packageEntries, Field.listed_eq hps]
    exact forall₂_reduceOption hread
  obtain ⟨ps', hps', perm⟩ := hdoc.packages.listOrEmpty .nil hps
  obtain ⟨rs', hread', hrows⟩ := forall₂_of_perm perm hread
  have agrees := PackageTable.agrees_ofRows rows hrows.symm
  obtain ⟨field, hfield, hnodes⟩ := h.nodesRead
  obtain ⟨field', hfield', hrel⟩ := hdoc.nodes.exists_given hfield
  obtain ⟨nodes', hnodes', hre⟩ := hrel.listOrEmpty (.nil _) hnodes
  obtain ⟨es', hes', hedges⟩ := PackageTable.edgesOfNodes_reorders hre h.edgesRead
  obtain ⟨raws, hraws, hids⟩ := h.membersRead
  have looked := mapM_eq_ok.1 hids
  obtain ⟨raws', hraws', hsame⟩ := hdoc.members.listOrEmpty (fun v => Iff.rfl) hraws
  have found : ∀ raw ∈ raws', ∃ id, (PackageTable.ofRows rs').lookup raw = .ok id := by
    intro raw hraw
    obtain ⟨id, -, hl⟩ := exists_right_of_forall₂ looked ((hsame raw).2 hraw)
    exact ⟨id, agrees.lookup raw ▸ hl⟩
  obtain ⟨ids', looked'⟩ := forall₂_of_forall_exists found
  refine ⟨rs, rs', nodes', es', ids', rfl, rows, hrows, hedges, fun id => ?_,
    ⟨⟨ps', hps', PackageTable.ofEntries_eq_ok.2 ⟨rs', hread', rfl⟩⟩, ⟨field', hfield', hnodes'⟩,
      agrees.edgesOfNodes nodes' ▸ hes', raws', hraws', mapM_eq_ok.2 looked'⟩⟩
  constructor
  · intro hid
    obtain ⟨raw, hraw, hl⟩ := exists_left_of_forall₂ looked' hid
    obtain ⟨id', hid', hl'⟩ := exists_right_of_forall₂ looked ((hsame raw).2 hraw)
    rw [← agrees.lookup raw] at hl
    cases hl.symm.trans hl'
    exact hid'
  · intro hid
    obtain ⟨raw, hraw, hl⟩ := exists_left_of_forall₂ looked hid
    obtain ⟨id', hid', hl'⟩ := exists_right_of_forall₂ looked' ((hsame raw).1 hraw)
    rw [← agrees.lookup raw] at hl'
    cases hl.symm.trans hl'
    exact hid'

theorem Reorders.ofDocument_isOk [Whereabouts] (hdoc : doc.Reorders doc')
    (distinct : doc.HasDistinctPackages)
    (h : ∃ g, Graph.ofDocument doc = .ok g) : ∃ g', Graph.ofDocument doc' = .ok g' := by
  obtain ⟨g, hg⟩ := h
  obtain ⟨t, nodes, es, ids, hy, -⟩ := Graph.ofDocument_eq_ok.1 hg
  obtain ⟨rs, rs', nodes', es', ids', -, -, -, -, -, hy'⟩ := hy.reorders distinct hdoc
  exact ⟨_, Graph.ofDocument_eq_ok.2 ⟨_, _, _, _, hy', rfl⟩⟩

end ResolverDocument

/-! ### Edges that fall together are equal -/

namespace ResolverDocument

variable {doc doc' : ResolverDocument} {t t' : PackageTable} {nodes nodes' : List (Option NodeEntry)}
  {es es' : List Edge} {ids ids' : List PackageId}

theorem mem_kindEntries {d : DependencyEntry} {kinds : List (Option Value)}
    (h : d.kindList = .ok kinds) {kind : Option Value} (hk : kind ∈ kinds) :
    kind ∈ d.kindEntries := by
  have filled (hd : d.kinds ≠ .given []) : kind ∈ d.kindEntries := by
    rw [PackageTable.kindEntries_eq h hd]
    exact hk
  by_cases hd : d.kinds = .given []
  · rw [DependencyEntry.kindList, hd] at h
    cases h
    cases hk
  · exact filled hd

variable [Whereabouts]

theorem Yields.exists_occurrence (h : doc.Yields t nodes es ids) {e : Edge} (he : e ∈ es) :
    ∃ n ∈ doc.nodeEntries, ∃ o ∈ n.occurrences, o.node = n ∧ t.Resolves o e := by
  obtain ⟨source, d, kind, hg⟩ := (PackageTable.mem_edgesOfNodes h.edgesRead).1 he
  obtain ⟨n, deps, hn, hs, hd, hmem⟩ := hg.listed
  obtain ⟨kinds, hk, hkind⟩ := hg.ofKind
  obtain ⟨hsource, -⟩ := hg.edge_eq
  refine ⟨n, ?_, ⟨n, d, kind⟩, ?_, rfl, hsource ▸ hs, hsource ▸ hg.resolved⟩
  · rw [h.nodeEntries_eq, List.reduceOption_mem_iff]
    exact hn
  · have hentry : d ∈ n.entries := by
      rw [NodeEntry.entries, Field.listed_eq hd, List.reduceOption_mem_iff]
      exact hmem
    exact List.mem_flatMap.2 ⟨d, hentry, List.mem_map.2 ⟨kind, mem_kindEntries hk hkind, rfl⟩⟩

theorem HasDistinctNodes.eq_of_same (h : doc.HasDistinctNodes) {n m : NodeEntry}
    (hn : n ∈ doc.nodeEntries) (hm : m ∈ doc.nodeEntries) {p q : PackageEntry} {a b : PackageId}
    (ha : doc.Finds n.rawId p a) (hb : doc.Finds m.rawId q b) (same : a.same b = true) :
    n = m := by
  by_contra hne
  have symm : Std.Symm fun n m : NodeEntry => ∀ p a q b,
      doc.Finds n.rawId p a → doc.Finds m.rawId q b → a.same b = false :=
    ⟨fun n m hnm p a q b ha hb => by rw [PackageId.same_comm, hnm q b p a hb ha]⟩
  have apart := List.Pairwise.forall h hn hm hne p a q b ha hb
  rw [same] at apart
  cases apart

/-- Without repeated nodes and unsettled aliases nothing is replaced: what stands for one entry and
target is one edge. -/
theorem Yields.eq_of_sameEntry (h : doc.Yields t nodes es ids)
    (distinct : doc.HasDistinctPackages) (apart : doc.HasDistinctNodes)
    (settled : doc.HasSettledAliases) {e f : Edge} (he : e ∈ es) (hf : f ∈ es)
    (hs : e.sameEntry f = true) : e = f := by
  obtain ⟨n, hn, o, ho, rfl, hre⟩ := h.exists_occurrence he
  obtain ⟨m, hm, o', ho', rfl, hrf⟩ := h.exists_occurrence hf
  obtain ⟨rs, hrs, rfl⟩ := h.exists_rows
  have hde := (resolves_iff_denotes distinct hrs).1 hre
  have hdf := (resolves_iff_denotes distinct hrs).1 hrf
  obtain ⟨hsource, htarget, hkind, hname⟩ := Edge.sameEntry_iff.1 hs
  obtain ⟨p, hp, -⟩ := hde.source
  obtain ⟨q, hq, -⟩ := hdf.source
  have node := apart.eq_of_same hn hm hp hq hsource
  have sources : e.source = f.source := by
    have hl := hrf.source
    rw [← node, hre.source] at hl
    exact Except.ok.inj hl
  obtain ⟨-, het, -, -, -, -, -, helib⟩ := PackageTable.exists_resolve_iff.1 hre.edge
  obtain ⟨-, hft, -, -, -, -, -, hflib⟩ := PackageTable.exists_resolve_iff.1 hrf.edge
  have targets : e.target = f.target := by
    obtain ⟨r, hr, hre⟩ := PackageTable.exists_row_of_lookup het
    obtain ⟨s, hs, hsf⟩ := PackageTable.exists_row_of_lookup hft
    rw [← hre, ← hsf] at htarget ⊢
    rw [(distinct.rows hrs).eq_of_same hr hs htarget]
  have aliases : e.externName = f.externName :=
    settled o.node hn o ho o' (node ▸ ho') e f hde hdf hs
  have libraries : e.targetLib = f.targetLib := by rw [helib, hflib, targets]
  obtain ⟨_, _, _, _, _, _⟩ := e
  obtain ⟨_, _, _, _, _, _⟩ := f
  simp_all

theorem Yields.mem_edges_of_settled (h : doc.Yields t nodes es ids) {g : Graph}
    (hg : g = ids.foldl Graph.addMember (es.foldl Graph.addEdge t.graph))
    (settled : ∀ e ∈ es, ∀ f ∈ es, e.sameEntry f = true → e = f) {e : Edge} :
    e ∈ g.edges ↔ e ∈ es := by
  constructor
  · exact h.mem_of_mem_edges hg
  · intro he
    obtain ⟨f, hf, hs⟩ := h.exists_sameEntry hg he
    have heq := settled f (h.mem_of_mem_edges hg hf) e he hs
    exact heq ▸ hf

theorem Yields.nodup_edges (h : doc.Yields t nodes es ids) {g : Graph}
    (hg : g = ids.foldl Graph.addMember (es.foldl Graph.addEdge t.graph)) : g.edges.Nodup := by
  refine (h.distinct_edges hg).imp_of_mem fun {e f} he _ hef => ?_
  rintro rfl
  rw [h.sameEntry_self (h.mem_of_mem_edges hg he)] at hef
  cases hef

theorem Yields.nodup_members (h : doc.Yields t nodes es ids) {g : Graph}
    (hg : g = ids.foldl Graph.addMember (es.foldl Graph.addEdge t.graph)) (wf : g.WellFormed) :
    g.members.Nodup := by
  refine wf.membersDistinct.imp_of_mem fun {m n} hm _ hmn => ?_
  rintro rfl
  obtain ⟨raw, -, hl⟩ := h.lookup_of_mem_members hg hm
  rw [h.same_self hl] at hmn
  cases hmn

theorem Reorders.finds_iff (h : doc.Reorders doc') {raw : Value} {p : PackageEntry}
    {id : PackageId} : doc.Finds raw p id ↔ doc'.Finds raw p id :=
  ⟨fun hf => ⟨h.packageEntries.mem_iff.1 hf.mem, hf.identity, hf.raw⟩,
    fun hf => ⟨h.packageEntries.mem_iff.2 hf.mem, hf.identity, hf.raw⟩⟩

end ResolverDocument

/-! ### The graphs of rearranged documents -/

/-- Whether two graphs have the same contents, in any order. -/
structure Graph.Permutes (g g' : Graph) : Prop where
  packages : g.packages.Perm g'.packages
  edges : g.edges.Perm g'.edges
  members : g.members.Perm g'.members

theorem ResolverDocument.Reorders.permutes [Whereabouts] {doc doc' : ResolverDocument}
    (hdoc : doc.Reorders doc') (distinct : doc.HasDistinctPackages)
    (apart : doc.HasDistinctNodes) (settled : doc.HasSettledAliases) {g g' : Graph}
    (h : Graph.ofDocument doc = .ok g) (h' : Graph.ofDocument doc' = .ok g') : g.Permutes g' := by
  have wf := Graph.wellFormed_ofDocument h
  have wf' := Graph.wellFormed_ofDocument h'
  obtain ⟨t, nodes, es, ids, hy, hg⟩ := Graph.ofDocument_eq_ok.1 h
  obtain ⟨t', nodes', es', ids', hy', hg'⟩ := Graph.ofDocument_eq_ok.1 h'
  have one := fun e he f hf => hy.eq_of_sameEntry distinct apart settled (e := e) (f := f) he hf
  obtain ⟨rs, rs', _, _, _, rfl, rows, hrows, hedges, -, hy''⟩ := hy.reorders distinct hdoc
  obtain ⟨rfl, rfl, rfl, rfl⟩ := hy'.unique hy''
  have one' : ∀ e ∈ es', ∀ f ∈ es', e.sameEntry f = true → e = f := fun e he f hf =>
    one e (hedges.mem_iff.1 he) f (hedges.mem_iff.1 hf)
  refine ⟨?_, ?_, ?_⟩
  · have hpackages : g.packages = rs.map (·.info) := by
      rw [hg, Graph.packages_addMembers, Graph.packages_addEdges,
        PackageTable.packages_ofRows rows]
    have hpackages' : g'.packages = rs'.map (·.info) := by
      rw [hg', Graph.packages_addMembers, Graph.packages_addEdges,
        PackageTable.packages_ofRows (rows.perm hrows.symm)]
    rw [hpackages, hpackages']
    exact hrows.symm.map _
  · refine (List.perm_ext_iff_of_nodup (hy.nodup_edges hg) (hy'.nodup_edges hg')).2 fun e => ?_
    rw [hy.mem_edges_of_settled hg one, hy'.mem_edges_of_settled hg' one', hedges.mem_iff]
  · have listed := hdoc.members.listed fun v => Iff.rfl
    refine (List.perm_ext_iff_of_nodup (hy.nodup_members hg wf)
      (hy'.nodup_members hg' wf')).2 fun m => ?_
    rw [hy.mem_members_iff hg distinct, hy'.mem_members_iff hg' (distinct.reorders hdoc)]
    simp only [listed, hdoc.finds_iff]

namespace Graph

variable {g g' : Graph}

/-- Whether two graphs list the same packages, members and dependencies, and every analysis of them
gives the same. -/
structure SameListings (g g' : Graph) : Prop where
  packages : ∃ ps, g.sortedPackages = .ok ps ∧ g'.sortedPackages = .ok ps
  members : ∃ ms, g.sortedMembers = .ok ms ∧ g'.sortedMembers = .ok ms
  package : ∀ p, g.package p = g'.package p
  dependencies : ∀ p, g.Knows p → ∃ es, g.dependencies p = .ok es ∧ g'.dependencies p = .ok es
  runs : ∀ records options artifacts ignores,
    Analysis.run g records options artifacts ignores =
      Analysis.run g' records options artifacts ignores

theorem Permutes.package (h : g.Permutes g') (wf : g.WellFormed) (p : PackageId) :
    g.package p = g'.package p := by
  unfold Graph.package package?
  rw [PackageId.find?_same_perm h.packages wf.distinct]

end Graph

theorem Analysis.run_congr {g g' : Graph} (package : ∀ p, g.package p = g'.package p)
    (members : g.sortedMembers = g'.sortedMembers)
    (dependencies : ∀ p, g.dependencies p = g'.dependencies p)
    (records : List InvocationRecord) (options : RunOptions) (artifacts : ArtifactLoader)
    (ignores : IgnoreLoader) :
    run g records options artifacts ignores = run g' records options artifacts ignores := by
  have tables : NameTables.ofGraph g = NameTables.ofGraph g' := by
    unfold NameTables.ofGraph DependencyNames.ofGraph
    simp only [funext package, members, dependencies]
  have entries (used : UsedDependencies) :
      Outcome.packageEntry g used ignores = Outcome.packageEntry g' used ignores := by
    funext names
    unfold Outcome.packageEntry
    simp only [package]
  unfold run Outcome.aggregate
  simp only [tables, entries]

namespace Graph

theorem Permutes.sameListings {g g' : Graph} (h : g.Permutes g') (wf : g.WellFormed)
    (coded : g.IsCoded) (distinct : g.edges.Pairwise fun e f => e.sameEntry f = false) :
    g.SameListings g' := by
  have packages : g.sortedPackages = g'.sortedPackages := by
    have keyed : ∀ p ∈ g.packages, HasCodedKeys (fun p : PackageInfo => p.id.keys?) p :=
      fun p hp => (coded.packages p hp).hasCodedKeys
    unfold sortedPackages
    rw [sortByKeys?_congr h.packages keyed (coded.packages_ne wf.distinct)]
  have members : g.sortedMembers = g'.sortedMembers := by
    have keyed : ∀ m ∈ g.members, HasCodedKeys PackageId.keys? m :=
      fun m hm => (coded.members m hm).hasCodedKeys
    unfold sortedMembers
    rw [sortByKeys?_congr h.members keyed (coded.members_ne wf.membersDistinct)]
  have dependencies (p : PackageId) : g.dependencies p = g'.dependencies p := by
    unfold Graph.dependencies
    rw [sortByKeys?_congr (h.edges.filter _) (coded.hasCodedKeys_edges p)
      (coded.edges_ne distinct p)]
  obtain ⟨ps, hps⟩ := coded.exists_sortedPackages wf.distinct
  obtain ⟨ms, hms, -, -⟩ := coded.exists_sortedMembers wf.membersDistinct
  refine ⟨⟨ps, hps, packages ▸ hps⟩, ⟨ms, hms, members ▸ hms⟩, h.package wf, fun p _ => ?_,
    Analysis.run_congr (h.package wf) members dependencies⟩
  obtain ⟨es, hes, -⟩ := coded.exists_dependencies distinct p
  exact ⟨es, hes, dependencies p ▸ hes⟩

/-- Documents that differ only in the order of their arrays are accepted alike, and what is listed
and analysed of their graphs is the same. -/
theorem same_ofDocument [Whereabouts] {doc doc' : ResolverDocument} (hdoc : doc.Reorders doc')
    (distinct : doc.HasDistinctPackages) (apart : doc.HasDistinctNodes)
    (settled : doc.HasSettledAliases) :
    ((∃ g, Graph.ofDocument doc = .ok g) ↔ ∃ g', Graph.ofDocument doc' = .ok g') ∧
    ∀ g g', Graph.ofDocument doc = .ok g → Graph.ofDocument doc' = .ok g' → doc.IsCoded →
      g.SameListings g' := by
  refine ⟨⟨hdoc.ofDocument_isOk distinct, hdoc.symm.ofDocument_isOk (distinct.reorders hdoc)⟩,
    fun g g' h h' coded => ?_⟩
  have permutes := hdoc.permutes distinct apart settled h h'
  obtain ⟨t, nodes, es, ids, hy, hg⟩ := ofDocument_eq_ok.1 h
  exact permutes.sameListings (wellFormed_ofDocument h) (isCoded_ofDocument h coded)
    (hy.distinct_edges hg)

end Graph

end UnusedDeps
