import UnusedDeps.Proofs.Graph.Coded

/-!
# Small workspaces

Documents of one member and packages from a registry, which are the smallest in
which a statement about graphs says anything.
-/

namespace UnusedDeps

/-- The identity of a package from a registry. -/
def registryId (name : String) : PackageId := ⟨.text name, .text "1.0.0", .text "registry"⟩

/-- The entry of a package from a registry. -/
def registryEntry (name : String) (declared : List Declaration) (library : Option String) :
    PackageEntry where
  rawId := some (.text name)
  name := some (.text name)
  version := some (.text "1.0.0")
  manifestPath := .given "/Cargo.toml"
  source := some (.text "registry")
  dependencies := .given (declared.map some)
  targets := .given (library.toList.map fun l => some ⟨some (.text l), .given [.text "lib"]⟩)
  metadata := .ok .empty

/-- The package that such an entry gives. -/
def registryPackage (name : String) (library : Option String) : PackageInfo :=
  ⟨registryId name, Path.ofText "/Cargo.toml", library.map .text, .empty⟩

/-- A workspace whose one member `app` depends on packages from a registry: `deps` has the name,
the alias and the kind of each dependency, and `others` the name and the library of each package. -/
def soleMember (declared : List Declaration) (deps : List (String × String × Value))
    (others : List (String × Option String)) : ResolverDocument where
  packages := .given ((registryEntry "app" declared none ::
    others.map fun p => registryEntry p.1 [] p.2).map some)
  nodes := .given (.given [some ⟨.text "app",
    .given (deps.map fun d => some ⟨.text d.1, some (.text d.2.1), .given [some d.2.2]⟩)⟩])
  members := .given [.text "app"]

theorem identity_registryEntry [Whereabouts] (name : String) (declared : List Declaration)
    (library : Option String) : (registryEntry name declared library).identity =
      .ok (registryId name, Path.ofText "/Cargo.toml") := rfl

section Registry

variable {doc : ResolverDocument} {ps : List (String × List Declaration × Option String)}
  (h : doc.packageEntries = ps.map fun p => registryEntry p.1 p.2.1 p.2.2)

include h

theorem hasDistinctPackages_of_registry [Whereabouts] (names : ps.Pairwise fun p q => p.1 ≠ q.1) :
    doc.HasDistinctPackages := by
  rw [ResolverDocument.HasDistinctPackages, h, List.pairwise_map]
  refine names.imp fun {p q} hpq a m b n ha hb => ?_
  rw [identity_registryEntry] at ha hb
  cases ha
  cases hb
  constructor
  · rw [← Bool.not_eq_true, registryId, registryId, PackageId.same_texts]
    exact fun same => hpq same.1
  · rw [← Bool.not_eq_true]
    exact fun same => hpq ((Value.sameKey_texts p.1 q.1).1 same)

theorem finds_of_registry [Whereabouts] {raw : Value} {p : PackageEntry} {id : PackageId}
    (hf : doc.Finds raw p id) : ∃ name, id = registryId name ∧ (Value.text name).sameKey raw := by
  have hmem := hf.mem
  rw [h] at hmem
  obtain ⟨q, -, rfl⟩ := List.mem_map.1 hmem
  obtain ⟨manifest, hid⟩ := hf.identity
  rw [identity_registryEntry] at hid
  cases hid
  exact ⟨q.1, rfl, hf.raw⟩

theorem isCoded_of_registry (names : ∀ p ∈ ps, Text.IsCoded p.1)
    (renames : ∀ p ∈ ps, ∀ d ∈ p.2.1, ∀ r, d.rename = .given r → Text.IsCoded r) :
    doc.IsCoded := by
  intro p hp
  rw [h] at hp
  obtain ⟨q, hq, rfl⟩ := List.mem_map.1 hp
  have plain (s : String) (hs : Text.IsCoded s) (v : Value) (hv : some (.text s) = some v) :
      v.IsCoded := ⟨s, (Option.some.inj hv).symm, hs⟩
  refine ⟨plain q.1 (names q hq), plain "1.0.0" (Text.isCoded_of_plain (by decide)),
    plain "registry" (Text.isCoded_of_plain (by decide)), fun d hd r hr => ?_⟩
  obtain ⟨e, he, heq⟩ := List.mem_map.1 hd
  cases heq
  exact renames q hq d he r hr

end Registry

theorem isTextual_registryEntry (name : String) (declared : List Declaration)
    (library : Option String) : (registryEntry name declared library).IsTextual where
  name := fun v hv => ⟨name, (Option.some.inj hv).symm⟩
  version := fun v hv => ⟨"1.0.0", (Option.some.inj hv).symm⟩
  source := fun v hv => ⟨"registry", (Option.some.inj hv).symm⟩
  targets := fun ts hts t ht v hv => by
    cases hts
    obtain ⟨l, -, heq⟩ := List.mem_map.1 ht
    cases heq
    exact ⟨l, (Option.some.inj hv).symm⟩

theorem isTextual_soleMember (declared : List Declaration) (deps : List (String × String × Value))
    (others : List (String × Option String)) : (soleMember declared deps others).IsTextual where
  packages := fun ps hps p hp => by
    cases hps
    obtain ⟨q, hq, heq⟩ := List.mem_map.1 hp
    cases heq
    rcases List.mem_cons.1 hq with rfl | hq
    · exact isTextual_registryEntry "app" declared none
    · obtain ⟨other, -, rfl⟩ := List.mem_map.1 hq
      exact isTextual_registryEntry other.1 [] other.2
  aliases := fun field ns hfield hns n hn ds hds d hd v hv => by
    cases hfield
    cases hns
    cases List.mem_singleton.1 hn
    cases hds
    obtain ⟨dep, -, heq⟩ := List.mem_map.1 hd
    cases heq
    exact ⟨dep.2.1, (Option.some.inj hv).symm⟩

end UnusedDeps
