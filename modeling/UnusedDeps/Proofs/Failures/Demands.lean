import UnusedDeps.Proofs.Failures.Told
import UnusedDeps.Proofs.Graph.LastEntry

/-!
# What a document has to provide

A resolver document is taken up from front to back, and each entry demands
something of it: that a package entry is complete and its directory has a name,
that there is a section `resolve`, that a raw identifier is that of a package,
that a kind is known. Main statement: `follows_ofDocument`. A document of the
right types fails exactly when a demand is not met, and as the first such one
says.
-/

namespace UnusedDeps

/-! ### Demands -/

/-- Why the directory that identifies a package without a source has no name. -/
def PackageEntry.directoryFault? (p : PackageEntry) : Option Path.NameFault :=
  match p.source, p.manifestPath with
  | none, .given s => (Path.ofText s).parent.fault?
  | _, _ => none

/-- What an entry of a document demands. -/
inductive Demand where
  /-- A package entry has a name. -/
  | name (p : PackageEntry)
  | version (p : PackageEntry)
  | manifest (p : PackageEntry)
  /-- The directory that identifies a package without a source has a name. -/
  | directory (p : PackageEntry)
  /-- There is a section `resolve`. -/
  | resolution
  /-- A raw identifier is that of a package. -/
  | package (raw : Value)
  /-- A kind of a resolved dependency of a package is known. -/
  | kind (source : PackageId) (v : Value)
  /-- The kind of a declaration is known. -/
  | declared (v : Value)

/-- Whether a document that does not meet a demand is told so in words. -/
def Demand.IsTold : Demand → Prop
  | .directory _ | .declared _ => False
  | _ => True

/-- Whether a value names a kind of dependencies. -/
def Value.IsKind (v : Value) : Prop := ∃ k, DependencyKind.ofValue v = .ok k

theorem kind_cases {v : Value} (h : v.IsTextOrNull) :
    (∃ k, DependencyKind.ofValue v = .ok k) ∨ DependencyKind.ofValue v = .error (.unknown v) := by
  obtain rfl | ⟨s, rfl⟩ := h
  · exact .inl ⟨.normal, rfl⟩
  · unfold DependencyKind.ofValue
    dsimp only
    repeat' split
    · exact .inl ⟨_, rfl⟩
    · exact .inl ⟨_, rfl⟩
    · exact .inl ⟨_, rfl⟩
    · exact .inr rfl

variable [Whereabouts]

namespace ResolverDocument

/-- How a document is refused for a demand that it does not meet. -/
def refusal? (doc : ResolverDocument) : Demand → Option Fault
  | .name p => if p.name.isSome then none else some (p.lacks "name")
  | .version p => if p.version.isSome then none else some (p.lacks "version")
  | .manifest p =>
    if p.manifestPath matches .absent then some (p.lacks "manifest_path") else none
  | .directory p => p.directoryFault?.map .ofName
  | .resolution => if doc.nodes matches .absent then some (.problem .unresolvedGraph) else none
  | .package raw =>
    if (doc.package? raw).isSome then none else some (.problem (.unknownPackage raw))
  | .kind source v =>
    match DependencyKind.ofValue v with
    | .ok _ => none
    | .error _ => some (.problem (.unknownKind v source.text))
  | .declared v =>
    match DependencyKind.ofValue v with
    | .ok _ => none
    | .error _ => some (.unknownKind v)

end ResolverDocument

def PackageEntry.demands (p : PackageEntry) : List Demand :=
  [.name p, .version p, .manifest p, .directory p]

namespace ResolverDocument

/-- Every kind of an entry is interpreted, and with each of them the kinds of the declarations. -/
def demandsOfEntry (doc : ResolverDocument) (source : PackageId) (d : DependencyEntry) :
    List Demand :=
  .package d.package ::
    match doc.package? d.package with
    | none => []
    | some target => d.kindEntries.reduceOption.flatMap fun v =>
        .kind source v :: (doc.matching source target).map fun e => .declared e.kind

def demandsOfNode (doc : ResolverDocument) (n : NodeEntry) : List Demand :=
  .package n.rawId ::
    match doc.package? n.rawId with
    | none => []
    | some source => n.entries.flatMap (doc.demandsOfEntry source)

/-- The demands of a document, in the order in which it is taken up. -/
def demands (doc : ResolverDocument) : List Demand :=
  doc.packageEntries.flatMap PackageEntry.demands ++ .resolution ::
    (doc.nodeEntries.flatMap doc.demandsOfNode ++ doc.members.listed.map .package)

variable {doc : ResolverDocument}

theorem mem_demandsOfEntry {source : PackageId} {d : DependencyEntry} {x : Demand} :
    x ∈ doc.demandsOfEntry source d ↔ x = .package d.package ∨
      ∃ target, doc.package? d.package = some target ∧ ∃ v, some v ∈ d.kindEntries ∧
        (x = .kind source v ∨ ∃ e ∈ doc.matching source target, x = .declared e.kind) := by
  rw [demandsOfEntry, List.mem_cons]
  cases doc.package? d.package with
  | none => simp
  | some target =>
    simp [List.mem_flatMap, List.reduceOption_mem_iff, eq_comm]

theorem mem_demandsOfNode {n : NodeEntry} {x : Demand} :
    x ∈ doc.demandsOfNode n ↔ x = .package n.rawId ∨
      ∃ source, doc.package? n.rawId = some source ∧
        ∃ d ∈ n.entries, x ∈ doc.demandsOfEntry source d := by
  rw [demandsOfNode, List.mem_cons]
  cases doc.package? n.rawId with
  | none => simp
  | some source => simp [List.mem_flatMap]

theorem mem_demands {x : Demand} :
    x ∈ doc.demands ↔ (∃ p ∈ doc.packageEntries, x ∈ p.demands) ∨ x = .resolution ∨
      (∃ n ∈ doc.nodeEntries, x ∈ doc.demandsOfNode n) ∨
      ∃ raw ∈ doc.members.listed, x = .package raw := by
  simp [demands, List.mem_flatMap, eq_comm]

theorem refusal?_package {raw : Value} : doc.refusal? (.package raw) = none ↔ doc.Knows raw := by
  rw [← not_iff_not, ← package?_eq_none_iff, refusal?]
  cases doc.package? raw <;> simp

theorem refusal?_kind {source : PackageId} {v : Value} :
    doc.refusal? (.kind source v) = none ↔ v.IsKind := by
  rw [refusal?, Value.IsKind]
  cases DependencyKind.ofValue v <;> simp

theorem refusal?_declared {v : Value} : doc.refusal? (.declared v) = none ↔ v.IsKind := by
  rw [refusal?, Value.IsKind]
  cases DependencyKind.ofValue v <;> simp

/-- The demands whose refusals are problems with the graph. -/
theorem isTold_iff_of_refusal? {d : Demand} {f : Fault} (refused : doc.refusal? d = some f) :
    d.IsTold ↔ ∃ p, f = .problem p ∧ p.code = "graph.invalid" := by
  cases d with
  | directory p =>
    obtain ⟨e, -, rfl⟩ := Option.map_eq_some_iff.1 refused
    refine iff_of_false id ?_
    rintro ⟨p, hp, -⟩
    cases e <;> cases hp
  | declared v =>
    rw [refusal?] at refused
    split at refused
    · cases refused
    · cases refused
      refine iff_of_false id ?_
      rintro ⟨p, hp, -⟩
      cases hp
  | kind source v =>
    rw [refusal?] at refused
    split at refused
    · cases refused
    · cases refused
      exact iff_of_true trivial ⟨_, rfl, rfl⟩
  | _ =>
    rw [refusal?] at refused
    split at refused <;> cases refused
    exact iff_of_true trivial ⟨_, rfl, rfl⟩

end ResolverDocument

/-! ### Packages -/

variable {doc : ResolverDocument}

namespace PackageEntry

variable {p : PackageEntry}

theorem follows_require {α : Type} {d : Demand} {x : Option α} {name : String}
    (h : doc.refusal? d = if x.isSome then none else some (p.lacks name)) :
    Follows doc.refusal? [d] (p.require name x) := by
  cases x with
  | none => exact follows_refused h []
  | some a => exact follows_met h a

theorem follows_manifest (h : p.IsShaped) : Follows doc.refusal? [.manifest p] p.manifest := by
  unfold PackageEntry.manifest
  cases hm : p.manifestPath with
  | given s => exact follows_met (by simp [ResolverDocument.refusal?, hm]) _
  | absent => exact follows_refused (by simp [ResolverDocument.refusal?, hm]) []
  | malformed => exact absurd (by simp [hm]) h.manifest

theorem follows_identity (h : p.IsShaped) : Follows doc.refusal? p.demands p.identity := by
  refine (follows_require rfl).bind fun name _ => (follows_require rfl).bind fun version _ =>
    (follows_manifest h).bind fun manifest hm => ?_
  have refused : doc.refusal? (.directory p) = p.directoryFault?.map .ofName := rfl
  cases source : p.source with
  | some s =>
    refine follows_met ?_ _
    rw [refused, directoryFault?, source]
    rfl
  | none =>
    have fault : p.directoryFault? = manifest.parent.fault? := by
      rw [directoryFault?, source]
      unfold PackageEntry.manifest at hm
      split at hm
      · rename_i s hs
        cases hm
        rw [hs]
      · cases hm
      · cases hm
    rw [fault] at refused
    dsimp only
    rw [PackageId.ofDirectory]
    cases named : manifest.parent.fault? with
    | none =>
      rw [named] at refused
      exact follows_met refused _
    | some e =>
      rw [named] at refused
      exact follows_refused refused []

end PackageEntry

namespace PackageTable

theorem follows_addEntry {p : PackageEntry} (h : p.IsShaped) (t : PackageTable) :
    Follows doc.refusal? p.demands (t.addEntry p) := by
  refine (PackageEntry.follows_identity h).bind_ok fun ⟨id, manifest⟩ hid => ?_
  -- The other fields of an entry of the right types can all be read.
  obtain ⟨declared, hdeclared, -⟩ := h.dependencies
  obtain ⟨targets, htargets, typed⟩ := h.targets
  obtain ⟨lib, hlib⟩ := libraryName_isOk typed
  obtain ⟨metadata, hm⟩ := h.metadata
  obtain ⟨name, version, source, -, hkeys⟩ := (h.isTextual.identity hid).keys?
  have keyed : (p.rawIdOf id).key?.isSome = true := by
    rw [PackageEntry.rawIdOf]
    cases raw : p.rawId with
    | none => rfl
    | some v => exact (h.rawId v raw).isSome_key?
  obtain ⟨key, hkey⟩ := Option.isSome_iff_exists.1 keyed
  exact ⟨_, bind_eq_ok.2 ⟨key, orWrongType_eq_ok.2 hkey, bind_eq_ok.2 ⟨declared, hdeclared,
    bind_eq_ok.2 ⟨_, orWrongType_eq_ok.2 hkeys, bind_eq_ok.2 ⟨targets, htargets,
    bind_eq_ok.2 ⟨lib, hlib, bind_eq_ok.2 ⟨metadata, mapError_eq_ok.2 hm, rfl⟩⟩⟩⟩⟩⟩⟩

theorem follows_ofEntries {ps : List PackageEntry} (h : ∀ p ∈ ps, p.IsShaped) (t : PackageTable) :
    Follows doc.refusal? (ps.flatMap PackageEntry.demands) (t.ofEntries (ps.map some)) := by
  induction ps generalizing t with
  | nil => exact follows_nil.2 ⟨t, rfl⟩
  | cons p ps ih =>
    rw [List.forall_mem_cons] at h
    rw [List.flatMap_cons, List.map_cons, ofEntries]
    exact (follows_addEntry h.1 t).bind fun u _ => ih h.2 u

end PackageTable

/-! ### Kinds and declarations -/

theorem follows_resolvedKind (source : PackageId) {v : Value} (h : v.IsTextOrNull) :
    Follows doc.refusal? [.kind source v] (resolvedKind source (some v)) := by
  rw [resolvedKind]
  rcases kind_cases h with ⟨k, hk⟩ | hk
  · rw [hk]
    exact follows_met (by simp [ResolverDocument.refusal?, hk]) k
  · rw [hk]
    exact follows_refused (by simp [ResolverDocument.refusal?, hk]) []

theorem follows_declaredKind {v : Value} (h : v.IsTextOrNull) :
    Follows doc.refusal? [.declared v] (declaredKind v) := by
  rw [declaredKind]
  rcases kind_cases h with ⟨k, hk⟩ | hk
  · rw [hk]
    exact follows_met (by simp [ResolverDocument.refusal?, hk]) k
  · rw [hk]
    exact follows_refused (by simp [ResolverDocument.refusal?, hk]) []

section Declarations

variable {ds : List Declaration} (h : ∀ d ∈ ds, d.IsShaped) (target : String)
  (kind : DependencyKind)

include h

theorem follows_candidates :
    Follows doc.refusal?
      ((ds.filter fun d => d.name.map Value.text = some (.text target)).map fun d =>
        .declared d.kind)
      (candidates target kind (ds.map some)) := by
  induction ds with
  | nil => exact follows_nil.2 ⟨[], rfl⟩
  | cons d ds ih =>
    rw [List.forall_mem_cons] at h
    rw [List.map_cons, candidates]
    have named : d.name.map Value.text = some (.text target) ↔ d.name = some target := by
      cases d.name <;> simp
    by_cases hname : d.name = some target
    · rw [List.filter_cons_of_pos (by simpa [named] using hname), if_pos hname, List.map_cons]
      exact (follows_declaredKind h.1.kind).bind fun k _ =>
        (ih h.2).bind_ok fun cs _ => ⟨_, rfl⟩
    · rw [List.filter_cons_of_neg (by simpa [named] using hname), if_neg hname]
      exact ih h.2

theorem follows_nameInManifest (externName : Value) :
    Follows doc.refusal?
      ((ds.filter fun d => d.name.map Value.text = some (.text target)).map fun d =>
        .declared d.kind)
      (nameInManifest (ds.map some) target kind externName) := by
  refine (follows_candidates h target kind).bind_ok fun cs hcs => ?_
  have readable : ∀ d ∈ cs, d.rename ≠ .malformed := by
    intro d hd malformed
    obtain ⟨e, he, heq⟩ := List.mem_map.1 (mem_of_candidates hcs hd)
    cases heq
    exact (h d he).rename (by simp [malformed])
  obtain ⟨n, hn, -⟩ := manifestKey_origin readable target externName
  exact ⟨n, hn⟩

end Declarations

/-! ### Dependencies -/

namespace PackageTable.Describes

variable {t : PackageTable}

theorem follows_lookup (h : t.Describes doc) {raw : Value} (text : raw.IsText) :
    Follows doc.refusal? [.package raw] (t.lookup raw) := by
  cases found : doc.package? raw with
  | some id =>
    rw [(h.lookup raw id).2 found]
    exact follows_met (by simp [ResolverDocument.refusal?, found]) id
  | none =>
    obtain ⟨key, hkey⟩ := Option.isSome_iff_exists.1 text.isSome_key?
    have missing : t.byRawId.lookup key = none := by
      rw [Option.eq_none_iff_forall_ne_some]
      intro id hid
      rw [(h.lookup raw id).1 (lookup_eq_ok.2 ⟨key, hkey, hid⟩)] at found
      cases found
    have unknown : t.lookup raw = .error (.problem (.unknownPackage raw)) := by
      unfold PackageTable.lookup
      simp only [hkey, orWrongType, bind, Except.bind, missing]
      rfl
    rw [unknown]
    exact follows_refused (by simp [ResolverDocument.refusal?, found]) []

variable (ht : t.Describes doc) (h : doc.IsShaped)

include ht h

theorem follows_edge {source target : PackageId} {name : String}
    (hname : target.name = .text name) (externName : Value) (lib : Option Value) {v : Value}
    (hv : v.IsTextOrNull) :
    Follows doc.refusal? (.kind source v :: (doc.matching source target).map fun e =>
      .declared e.kind)
      (ResolvedDependency.edge ⟨source, target, name, externName, lib, t.declarationsOf source⟩
        (some v)) := by
  refine (follows_resolvedKind source hv).bind fun kind _ => ?_
  have key : Follows doc.refusal? _ _ :=
    follows_nameInManifest (ResolverDocument.isShaped_declarationsOf h source) name kind externName
  rw [← hname, ← ht.declared] at key
  exact key.bind_ok fun n _ => ⟨_, rfl⟩

theorem follows_edgesOf (source : PackageId) {d : DependencyEntry} (hd : d.IsTyped)
    (filled : d.kinds ≠ .given []) :
    Follows doc.refusal? (doc.demandsOfEntry source d) (t.edgesOf source d) := by
  obtain ⟨ks, hks, kinds⟩ := hd.kinds
  obtain ⟨vs, rfl, texts⟩ := exists_map_some kinds
  have entries : d.kindEntries.reduceOption = vs := by
    rw [kindEntries_eq hks filled, List.reduceOption, List.filterMap_map]
    exact List.filterMap_some
  unfold edgesOf resolve
  rw [bind_assoc]
  refine (ht.follows_lookup hd.package).bind fun target htarget => ?_
  rw [(ht.lookup _ _).1 htarget, entries]
  obtain ⟨name, hname⟩ := (ht.textual.lookup htarget).name
  simp only [hname, pure_bind]
  refine .ok_bind hks ?_
  rw [List.mapM_map]
  exact follows_mapM fun v hv => ht.follows_edge h hname _ _ (texts v hv)

theorem follows_edgesOfEntries (source : PackageId) {ds : List DependencyEntry}
    (hds : ∀ d ∈ ds, d.IsTyped ∧ d.kinds ≠ .given []) :
    Follows doc.refusal? (ds.flatMap (doc.demandsOfEntry source))
      (t.edgesOfEntries source (ds.map some)) := by
  induction ds with
  | nil => exact follows_nil.2 ⟨[], rfl⟩
  | cons d ds ih =>
    rw [List.forall_mem_cons] at hds
    obtain ⟨⟨typed, filled⟩, rest⟩ := hds
    rw [List.flatMap_cons, List.map_cons, edgesOfEntries]
    exact (ht.follows_edgesOf h source typed filled).bind fun es _ =>
      (ih rest).bind_ok fun _ _ => ⟨_, rfl⟩

theorem follows_edgesOfNodes {ns : List NodeEntry}
    (hns : ∀ n ∈ ns, n.IsTyped ∧ ∀ d ∈ n.entries, d.kinds ≠ .given []) :
    Follows doc.refusal? (ns.flatMap doc.demandsOfNode) (t.edgesOfNodes (ns.map some)) := by
  induction ns with
  | nil => exact follows_nil.2 ⟨[], rfl⟩
  | cons n ns ih =>
    rw [List.forall_mem_cons] at hns
    obtain ⟨⟨typed, filled⟩, rest⟩ := hns
    obtain ⟨hdeps, deps⟩ := typed.deps.exists_eq
    rw [List.flatMap_cons, List.map_cons, edgesOfNodes]
    have first : Follows doc.refusal? (doc.demandsOfNode n) (t.lookup n.rawId >>= fun source =>
        n.deps.listOrEmpty >>= t.edgesOfEntries source) := by
      refine (ht.follows_lookup typed.rawId).bind fun source hsource => ?_
      rw [(ht.lookup _ _).1 hsource]
      exact .ok_bind hdeps
        (ht.follows_edgesOfEntries h source fun d hd => ⟨deps d hd, filled d hd⟩)
    simpa only [bind_assoc] using first.bind fun es _ => (ih rest).bind_ok
      (g := fun rest => pure (es ++ rest)) fun _ _ => ⟨_, rfl⟩

end PackageTable.Describes

/-! ### Documents -/

namespace Graph

/-- A document of the right types is refused as the first demand says that is not met. -/
theorem follows_ofDocument (h : doc.IsShaped) (filled : doc.FillsKinds) :
    Follows doc.refusal? doc.demands (ofDocument doc) := by
  obtain ⟨hps, packages⟩ := h.packages.exists_eq
  unfold ofDocument
  refine .ok_bind hps ((PackageTable.follows_ofEntries packages _).bind fun t ht => ?_)
  have hdescribes := PackageTable.describes_ofEntries h ht
  cases hn : doc.nodes with
  | absent =>
    exact follows_refused (by simp [ResolverDocument.refusal?, hn]) _
  | malformed => exact absurd (by simp [hn]) h.nodes.1
  | given f =>
    obtain ⟨hns, nodes⟩ := (h.nodes.2 f hn).exists_eq
    have entries : doc.nodeEntries = f.listed.reduceOption := by
      rw [ResolverDocument.nodeEntries, hn]
    rw [ResolverDocument.FillsKinds, entries] at filled
    obtain ⟨ms, hms, texts⟩ := h.members
    have members : Follows doc.refusal? (doc.members.listed.map .package) (ms.mapM t.lookup) := by
      rw [Field.listed_eq hms, List.map_eq_flatMap]
      exact follows_mapM fun raw hraw => hdescribes.follows_lookup (texts raw hraw)
    rw [follows_cons_of_met (by simp [ResolverDocument.refusal?, hn]), entries]
    refine .ok_bind hns ((hdescribes.follows_edgesOfNodes h fun n hmem =>
      ⟨nodes n hmem, filled n hmem⟩).bind fun edges _ => .ok_bind hms ?_)
    exact members.bind_ok fun ids _ => ⟨_, rfl⟩

theorem result_ofValue {v : Value} (read : ResolverDocument.ofValue? v = some doc) :
    (ofValue v).result = ofDocument doc := by
  unfold ofValue
  rw [read]
  dsimp only
  rw [Logged.result_bind, Logged.result_ofExcept]
  cases ofDocument doc with
  | error f => rfl
  | ok g => rfl

end Graph

end UnusedDeps
