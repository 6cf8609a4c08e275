import UnusedDeps.Cargo.Build
import UnusedDeps.Proofs.Spool.Record

/-!
# The index of a build

A graph whose identities are texts has an index, in which every package stands
under its manifest directory, and the packages to be compiled again can be told
from it. Main statements: `exists_ofGraph` and `exists_forcedNames`.
-/

namespace UnusedDeps

/-- Whether the packages of a graph can be told apart by their manifest directories, and the
directories and identities come back from JSON. -/
structure Graph.IsIndexable [Whereabouts] (g : Graph) : Prop where
  ids : ∀ p ∈ g.packages, p.id.IsFaithful
  sound : ∀ p ∈ g.packages, p.manifestPath.parent.fault? = none
  texts : ∀ p ∈ g.packages, Text.IsFaithful p.manifestPath.parent.resolve.text
  distinct : (g.packages.map fun p => p.manifestPath.parent.resolve).Nodup

theorem PackageId.IsFaithful.keys? {id : PackageId} (h : id.IsFaithful) :
    ∃ ss : List String, id.keys? = some (ss.map .text) := by
  obtain ⟨name, hname, -⟩ := h.name
  obtain ⟨version, hversion, -⟩ := h.version
  obtain ⟨source, hsource, -⟩ := h.source
  obtain ⟨_, _, _⟩ := id
  cases hname
  cases hversion
  cases hsource
  exact ⟨[name, version, source], PackageId.keys?_texts name version source⟩

namespace PackagesIndex

/-- The entry of a package in an index. -/
def entry [Whereabouts] (p : PackageInfo) : Path × PackageId :=
    (p.manifestPath.parent.resolve, p.id)

theorem entryOf_eq_ok [Whereabouts] {p : PackageInfo} (h : p.manifestPath.parent.fault? = none) :
    entryOf p = .ok (entry p) := by
  rw [entryOf, h]
  rfl

/-- The index of a graph has the entries of its packages, and no others. -/
theorem exists_ofGraph [Whereabouts] {g : Graph} (h : g.IsIndexable) :
    ∃ index, ofGraph g = .ok index ∧ index.Perm (g.packages.map entry) := by
  obtain ⟨ps, hps⟩ := sortByKeys?_isSome fun p hp => (h.ids p hp).keys?
  have perm := sortByKeys?_perm hps
  have entries : ps.mapM entryOf = .ok (ps.map entry) := by
    rw [mapM_eq_ok, List.forall₂_map_right_iff, List.forall₂_same]
    exact fun p hp => entryOf_eq_ok (h.sound p (perm.mem_iff.1 hp))
  have distinct : ((ps.map entry).map (·.1)).Nodup := by
    rw [List.map_map]
    exact (perm.map _).nodup_iff.2 h.distinct
  refine ⟨ps.map entry, ?_, perm.map entry⟩
  rw [ofGraph, bind_eq_ok]
  refine ⟨ps, orWrongType_eq_ok.2 hps, ?_⟩
  rw [entries]
  exact congrArg Except.ok (Mapping.ofPairs_of_nodup distinct)

section

variable [Whereabouts] {g : Graph} {index : PackagesIndex} (h : g.IsIndexable)
  (perm : index.Perm (g.packages.map entry))

include h perm

theorem isFaithful_of_perm : index.IsFaithful := by
  intro e he
  obtain ⟨p, hp, rfl⟩ := List.mem_map.1 (perm.mem_iff.1 he)
  exact ⟨h.texts p hp, h.ids p hp⟩

theorem nodup_of_perm : (index.map (·.1)).Nodup := by
  refine (perm.map (·.1)).nodup_iff.2 ?_
  rw [List.map_map]
  exact h.distinct

end

end PackagesIndex

/-! ### Packages to be compiled again -/

namespace BuildSetup

/-- The packages to be compiled again are some of those in the index. -/
theorem exists_forcedPackages {index : PackagesIndex} (h : index.IsFaithful) :
    ∃ ids, forcedPackages index = .ok ids ∧ ∀ id ∈ ids, id.IsFaithful := by
  have ids : ∀ id ∈ index.map (·.2), id.IsFaithful := fun id hid => by
    obtain ⟨e, he, rfl⟩ := List.mem_map.1 hid
    exact (h e he).2
  have forces : ∀ id ∈ index.map (·.2), ∃ b, Recorder.forcesRebuild id = .ok b := fun id hid => by
    obtain ⟨b, hb⟩ := (ids id hid).isLocal?
    exact ⟨b, orWrongType_eq_ok.2 hb⟩
  obtain ⟨forced, hforced, origin⟩ := exists_filterMapM
    (f := fun id => do return if ← Recorder.forcesRebuild id then some id else none)
    fun id hid => (forces id hid).imp' (fun b => if b then some id else none) fun b hb =>
      bind_eq_ok.2 ⟨b, hb, rfl⟩
  have faithful : ∀ id ∈ forced, id.IsFaithful := fun id hid => by
    obtain ⟨id', hid', hf⟩ := origin id hid
    obtain ⟨b, -, hb⟩ := bind_eq_ok.1 hf
    cases b with
    | false => cases hb
    | true =>
      cases hb
      exact ids _ hid'
  obtain ⟨sorted, hsorted⟩ := sortByKeys?_isSome fun id hid => (faithful id hid).keys?
  refine ⟨sorted, bind_eq_ok.2 ⟨forced, hforced, orWrongType_eq_ok.2 hsorted⟩, fun id hid => ?_⟩
  exact faithful id ((mem_sortByKeys? hsorted id).1 hid)

/-- The packages to be compiled again can be named when the identities are texts. -/
theorem exists_forcedNames {index : PackagesIndex} (h : index.IsFaithful) :
    ∃ names, forcedNames index = .ok names := by
  obtain ⟨ids, hids, faithful⟩ := exists_forcedPackages h
  obtain ⟨names, hnames⟩ : ∃ names, ids.mapM argumentName = .ok names := by
    simp only [mapM_eq_ok]
    refine forall₂_of_forall_exists fun id hid => ?_
    obtain ⟨name, hname, -⟩ := (faithful id hid).name
    exact ⟨name, by rw [argumentName, hname]⟩
  exact ⟨_, bind_eq_ok.2 ⟨ids, hids, bind_eq_ok.2 ⟨names, hnames, rfl⟩⟩⟩

end BuildSetup

end UnusedDeps
