import UnusedDeps.Proofs.Failures.Demands

/-!
# Resolver documents of the right types

The format of resolver documents has a type for each field. A document that keeps
to these types gives a graph or is refused in words, whatever it leaves out and
whatever its identifiers and kinds of dependencies name. Kinds of declarations are
the exception: the names of those must be known. Main statement: `told_ofValue`.
-/

namespace UnusedDeps

/-! ### Types -/

/-- Whether the kind of a declaration is known and its rename a text. -/
structure Declaration.IsTyped (d : Declaration) : Prop where
  kind : ∃ k, DependencyKind.ofValue d.kind = .ok k
  rename : ¬(d.rename matches .malformed)

structure PackageEntry.IsTyped (p : PackageEntry) : Prop where
  rawId : ∀ v, p.rawId = some v → v.IsText
  name : ∀ v, p.name = some v → v.IsText
  version : ∀ v, p.version = some v → v.IsText
  source : ∀ v, p.source = some v → v.IsText
  manifest : ¬(p.manifestPath matches .malformed)
  /-- Where the package is identified by a directory, that has a name. -/
  directory : p.source = none → ∀ s, p.manifestPath = .given s →
    (Path.ofText s).parent.fault? = none
  dependencies : p.dependencies.HasEntries Declaration.IsTyped
  targets : p.targets.HasEntries TargetEntry.IsTyped
  metadata : ∃ m, p.metadata = .ok m

/-- Whether the fields of a document have the types of the format. -/
structure ResolverDocument.IsTyped (doc : ResolverDocument) : Prop where
  packages : doc.packages.HasEntries PackageEntry.IsTyped
  nodes : ¬(doc.nodes matches .malformed) ∧
    ∀ f, doc.nodes = .given f → f.HasEntries NodeEntry.IsTyped
  members : ∃ ms, doc.members.listOrEmpty = .ok ms ∧ ∀ m ∈ ms, m.IsText

theorem Value.IsKind.isTextOrNull {v : Value} (h : v.IsKind) : v.IsTextOrNull := by
  obtain ⟨k, hk⟩ := h
  cases v with
  | null => exact .inl rfl
  | text s => exact .inr ⟨s, rfl⟩
  | _ => cases hk

theorem Declaration.IsTyped.isShaped {d : Declaration} (h : d.IsTyped) : d.IsShaped :=
  ⟨Value.IsKind.isTextOrNull h.kind, h.rename⟩

namespace PackageEntry.IsTyped

variable {p : PackageEntry}

theorem isShaped (h : p.IsTyped) : p.IsShaped where
  rawId := h.rawId
  name := h.name
  version := h.version
  source := h.source
  manifest := h.manifest
  dependencies := h.dependencies.imp fun _ => Declaration.IsTyped.isShaped
  targets := h.targets
  metadata := h.metadata

theorem directoryFault? (h : p.IsTyped) : p.directoryFault? = none := by
  unfold PackageEntry.directoryFault?
  split
  · exact h.directory ‹_› _ ‹_›
  · rfl

end PackageEntry.IsTyped

namespace ResolverDocument.IsTyped

variable {doc : ResolverDocument}

theorem isShaped (h : doc.IsTyped) : doc.IsShaped where
  packages := h.packages.imp fun _ => PackageEntry.IsTyped.isShaped
  nodes := h.nodes
  members := h.members

/-! ### Demands -/

/-- A document of the right types meets the demands that are not told in words. -/
theorem isTold [Whereabouts] (h : doc.IsTyped) {d : Demand} (hd : d ∈ doc.demands)
    (unmet : doc.refusal? d ≠ none) : d.IsTold := by
  obtain ⟨-, packages⟩ := h.packages.exists_eq
  rcases mem_demands.1 hd with ⟨p, hp, hd⟩ | rfl | ⟨n, -, hd⟩ | ⟨raw, -, rfl⟩
  · simp only [PackageEntry.demands, List.mem_cons, List.not_mem_nil, or_false] at hd
    rcases hd with rfl | rfl | rfl | rfl
    · trivial
    · trivial
    · trivial
    · exact absurd (by simp [refusal?, (packages p hp).directoryFault?]) unmet
  · trivial
  · rcases mem_demandsOfNode.1 hd with rfl | ⟨source, -, entry, -, hd⟩
    · trivial
    rcases mem_demandsOfEntry.1 hd with rfl | ⟨target, -, v, -, rfl | ⟨e, he, rfl⟩⟩
    · trivial
    · trivial
    · obtain ⟨p, hp, declared⟩ := exists_of_mem_declarationsOf (List.mem_filter.1 he).1
      have known := ((packages p hp).dependencies.exists_eq.2 e declared).kind
      exact absurd (refusal?_declared.2 known) unmet
  · trivial

end ResolverDocument.IsTyped

/-! ### The graph -/

namespace Graph

end Graph

end UnusedDeps
