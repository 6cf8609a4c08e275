import UnusedDeps.Proofs.Failures.Demands

/-!
# Inconsistent documents

A document of the shape of the format can still be inconsistent: an entry lacks a
field, the section `resolve` is missing, an identifier or a kind is not known. Main
statement: `decides_ofValue`. Such a document gives no graph, and any other one
does unless the directory of a package has no name; the failure is explained
exactly when the first demand that is not met is not for the kind of a declaration
or for the name of a directory.
-/

namespace UnusedDeps

variable {doc : ResolverDocument}

/-! ### Demands that are not met -/

namespace ResolverDocument

variable [Whereabouts]

/-- The ways in which a document of the right types is inconsistent. -/
inductive IsInconsistent (doc : ResolverDocument) : Prop where
  | incomplete {p : PackageEntry} (mem : p ∈ doc.packageEntries)
      (lacks : p.name = none ∨ p.version = none ∨ p.manifestPath = .absent)
  | unresolved (absent : doc.nodes = .absent)
  | unknownNode {n : NodeEntry} (node : n ∈ doc.nodeEntries) (unknown : ¬doc.Knows n.rawId)
  | unknownTarget {n : NodeEntry} {d : DependencyEntry} (node : n ∈ doc.nodeEntries)
      (entry : d ∈ n.entries) (unknown : ¬doc.Knows d.package)
  | unknownMember {raw : Value} (member : raw ∈ doc.members.listed) (unknown : ¬doc.Knows raw)
  | unknownKind {n : NodeEntry} {d : DependencyEntry} {v : Value} (node : n ∈ doc.nodeEntries)
      (entry : d ∈ n.entries) (kind : some v ∈ d.kindEntries) (unknown : ¬v.IsKind)
  /-- A declaration that matches a resolved dependency has no known kind. -/
  | unknownDeclared {n : NodeEntry} {d : DependencyEntry} {source target : PackageId}
      {e : Declaration} (node : n ∈ doc.nodeEntries) (entry : d ∈ n.entries)
      (hsource : doc.package? n.rawId = some source)
      (htarget : doc.package? d.package = some target) (declared : e ∈ doc.matching source target)
      (unknown : ¬e.kind.IsKind)

/-- A demand that is not met shows that the document is inconsistent, the name of a directory
apart. -/
theorem unmet_cases {x : Demand} (hx : x ∈ doc.demands) (unmet : doc.refusal? x ≠ none) :
    doc.IsInconsistent ∨ ∃ p ∈ doc.packageEntries, x = .directory p ∧ p.directoryFault? ≠ none := by
  rcases mem_demands.1 hx with ⟨p, hp, hx⟩ | rfl | ⟨n, hn, hx⟩ | ⟨raw, hraw, rfl⟩
  · simp only [PackageEntry.demands, List.mem_cons, List.not_mem_nil, or_false] at hx
    rcases hx with rfl | rfl | rfl | rfl
    · exact .inl (.incomplete hp (.inl (by simpa [refusal?] using unmet)))
    · exact .inl (.incomplete hp (.inr (.inl (by simpa [refusal?] using unmet))))
    · refine .inl (.incomplete hp (.inr (.inr ?_)))
      cases path : p.manifestPath <;> simp_all [refusal?]
    · exact .inr ⟨p, hp, rfl, by simpa [refusal?] using unmet⟩
  · refine .inl (.unresolved ?_)
    cases nodes : doc.nodes <;> simp_all [refusal?]
  · left
    rcases mem_demandsOfNode.1 hx with rfl | ⟨source, hs, d, hd, hx⟩
    · exact .unknownNode hn fun known => unmet (refusal?_package.2 known)
    rcases mem_demandsOfEntry.1 hx with rfl | ⟨target, ht, v, hv, rfl | ⟨e, he, rfl⟩⟩
    · exact .unknownTarget hn hd fun known => unmet (refusal?_package.2 known)
    · exact .unknownKind hn hd hv fun known => unmet (refusal?_kind.2 known)
    · exact .unknownDeclared hn hd hs ht he fun known => unmet (refusal?_declared.2 known)
  · exact .inl (.unknownMember hraw fun known => unmet (refusal?_package.2 known))

/-- An inconsistent document has a demand that it does not meet. -/
theorem IsInconsistent.exists_unmet (shaped : doc.IsShaped) (h : doc.IsInconsistent) :
    ∃ x ∈ doc.demands, doc.refusal? x ≠ none := by
  have ofPackage {p : PackageEntry} (hp : p ∈ doc.packageEntries) {x : Demand}
      (hx : x ∈ p.demands) : x ∈ doc.demands := mem_demands.2 (.inl ⟨p, hp, hx⟩)
  have ofNode {n : NodeEntry} (hn : n ∈ doc.nodeEntries) {x : Demand}
      (hx : x ∈ doc.demandsOfNode n) : x ∈ doc.demands :=
    mem_demands.2 (.inr (.inr (.inl ⟨n, hn, hx⟩)))
  have node {n : NodeEntry} (hn : n ∈ doc.nodeEntries) (unknown : ¬doc.Knows n.rawId) :
      ∃ x ∈ doc.demands, doc.refusal? x ≠ none :=
    ⟨.package n.rawId, ofNode hn (mem_demandsOfNode.2 (.inl rfl)), mt refusal?_package.1 unknown⟩
  -- The entries of a node are taken up when its identifier is known, their kinds when both are.
  have entry {n : NodeEntry} {d : DependencyEntry} (hn : n ∈ doc.nodeEntries) (hd : d ∈ n.entries)
      (unmet : ∀ source, doc.package? n.rawId = some source →
        ∃ x ∈ doc.demandsOfEntry source d, doc.refusal? x ≠ none) :
      ∃ x ∈ doc.demands, doc.refusal? x ≠ none := by
    cases hs : doc.package? n.rawId with
    | none => exact node hn (package?_eq_none_iff.1 hs)
    | some source =>
      obtain ⟨x, hx, refused⟩ := unmet source hs
      exact ⟨x, ofNode hn (mem_demandsOfNode.2 (.inr ⟨source, hs, d, hd, hx⟩)), refused⟩
  have target {source : PackageId} {d : DependencyEntry} (unknown : ¬doc.Knows d.package) :
      ∃ x ∈ doc.demandsOfEntry source d, doc.refusal? x ≠ none :=
    ⟨.package d.package, mem_demandsOfEntry.2 (.inl rfl), mt refusal?_package.1 unknown⟩
  cases h with
  | @incomplete p hp lacks =>
    rcases lacks with name | version | path
    · exact ⟨.name p, ofPackage hp (by simp [PackageEntry.demands]), by simp [refusal?, name]⟩
    · exact ⟨.version p, ofPackage hp (by simp [PackageEntry.demands]),
        by simp [refusal?, version]⟩
    · exact ⟨.manifest p, ofPackage hp (by simp [PackageEntry.demands]), by simp [refusal?, path]⟩
  | unresolved absent =>
    exact ⟨.resolution, mem_demands.2 (.inr (.inl rfl)), by simp [refusal?, absent]⟩
  | unknownNode hn unknown => exact node hn unknown
  | unknownTarget hn hd unknown => exact entry hn hd fun _ _ => target unknown
  | @unknownMember raw hraw unknown =>
    exact ⟨.package raw, mem_demands.2 (.inr (.inr (.inr ⟨raw, hraw, rfl⟩))),
      mt refusal?_package.1 unknown⟩
  | @unknownKind n d v hn hd hv unknown =>
    refine entry hn hd fun source hs => ?_
    cases ht : doc.package? d.package with
    | none => exact target (package?_eq_none_iff.1 ht)
    | some q =>
      exact ⟨.kind source v, mem_demandsOfEntry.2 (.inr ⟨q, ht, v, hv, .inl rfl⟩),
        mt refusal?_kind.1 unknown⟩
  | @unknownDeclared n d source q e hn hd hs ht he unknown =>
    refine entry hn hd fun source' hs' => ?_
    cases hs.symm.trans hs'
    obtain ⟨v, hv⟩ := ((shaped.nodeEntries n hn).deps.exists_eq.2 d hd).exists_kindEntry
    exact ⟨.declared e.kind, mem_demandsOfEntry.2 (.inr ⟨q, ht, v, hv, .inr ⟨e, he, rfl⟩⟩),
      mt refusal?_declared.1 unknown⟩

theorem exists_unmet_iff (shaped : doc.IsShaped) :
    (∃ x ∈ doc.demands, doc.refusal? x ≠ none) ↔
      doc.IsInconsistent ∨ ∃ p ∈ doc.packageEntries, p.directoryFault? ≠ none := by
  constructor
  · rintro ⟨x, hx, unmet⟩
    refine (unmet_cases hx unmet).imp_right ?_
    rintro ⟨p, hp, -, fault⟩
    exact ⟨p, hp, fault⟩
  · rintro (inconsistent | ⟨p, hp, fault⟩)
    · exact inconsistent.exists_unmet shaped
    · refine ⟨.directory p, mem_demands.2 (.inl ⟨p, hp, by simp [PackageEntry.demands]⟩), ?_⟩
      simpa [refusal?] using fault

/-! ### Which failures are explained -/

/-- Whether a result is a graph, or a problem with the graph exactly for an inconsistent
document. -/
structure IsExplained (doc : ResolverDocument) (x : Except Fault Graph) : Prop where
  told : ∀ f, x = .error f → ∃ p, f = .problem p ∧ p.code = "graph.invalid"
  refused_iff : (∃ f, x = .error f) ↔ doc.IsInconsistent

/-- Whether a result is what the demands of a document say. -/
structure Decides (doc : ResolverDocument) (x : Except Fault Graph) : Prop where
  /-- It fails as the first demand says that is not met. -/
  error_iff : ∀ f, x = .error f ↔ doc.demands.findSome? doc.refusal? = some f
  fails_iff : (∃ f, x = .error f) ↔
    doc.IsInconsistent ∨ ∃ p ∈ doc.packageEntries, p.directoryFault? ≠ none
  explained_iff : doc.IsExplained x ↔
    ∀ d, Reached (fun e => doc.refusal? e = none) doc.demands d → doc.refusal? d ≠ none → d.IsTold

end ResolverDocument

namespace Graph

theorem decides_ofDocument [Whereabouts] (h : doc.IsShaped) (filled : doc.FillsKinds) :
    doc.Decides (ofDocument doc) := by
  have follows := follows_ofDocument h filled
  have fails := follows.fails_iff.trans (ResolverDocument.exists_unmet_iff h)
  refine ⟨follows, fails, fun explained d reached unmet => ?_, fun told => ⟨fun f failed => ?_, ?_⟩⟩
  · obtain ⟨f, refused⟩ := Option.ne_none_iff_exists'.1 unmet
    have failed : ofDocument doc = .error f := follows.error_iff.2 ⟨d, reached, refused⟩
    exact (ResolverDocument.isTold_iff_of_refusal? refused).2 (explained.told f failed)
  · obtain ⟨d, reached, refused⟩ := follows.error_iff.1 failed
    exact (ResolverDocument.isTold_iff_of_refusal? refused).1 (told d reached (by simp [refused]))
  · refine ⟨fun ⟨f, failed⟩ => ?_, fun inconsistent => fails.2 (.inl inconsistent)⟩
    obtain ⟨d, reached, refused⟩ := follows.error_iff.1 failed
    have unmet : doc.refusal? d ≠ none := by simp [refused]
    rcases ResolverDocument.unmet_cases reached.mem unmet with inconsistent | ⟨p, -, rfl, -⟩
    · exact inconsistent
    · exact (told _ reached unmet).elim

/-- A document of the right shape gives a graph or is refused, and as the first of its demands says
that is not met. -/
theorem decides_ofValue [Whereabouts] {v : Value} (h : v.IsDocumentShaped) :
    ∃ doc, ResolverDocument.ofValue? v = some doc ∧ doc.Decides (ofValue v).result := by
  obtain ⟨doc, read, shaped⟩ := ResolverDocument.isShaped_ofValue? h
  refine ⟨doc, read, ?_⟩
  rw [result_ofValue read]
  exact decides_ofDocument shaped (ResolverDocument.fillsKinds_ofValue? read)

/-- A member `app` that depends on `log`, with a declaration and the member of the workspace. -/
def dependsOnLog (declared : Value) (member : String) : Value :=
  .table [
    ("packages", .list [
      packageValue "app" [declared] [],
      packageValue "log" [] [.table [("name", .text "log"), ("kind", .list [.text "lib"])]]]),
    ("resolve", .table [("nodes", .list [.table [("id", .text "app"), ("deps", .list [
      .table [("pkg", .text "log"), ("name", .text "log")]])]])]),
    ("workspace_members", .list [.text member])]

/-- A declaration of a kind that is not known. -/
def strangeKind (name : String) : Value := .table [("name", .text name), ("kind", .text "weird")]

theorem forall_eq_some_of_given {P : Value → Prop} {x : Option Value} {v : Value} (hx : x = some v)
    (h : P v) : ∀ w, x = some w → P w := by
  rintro w hw
  cases hx.symm.trans hw
  exact h

theorem forall_eq_some_of_missing {P : Value → Prop} {x : Option Value} (hx : x = none) :
    ∀ w, x = some w → P w := by
  rintro w hw
  cases hx.symm.trans hw

theorem isPackageShaped_packageValue (name : String) {declared targets : List Value}
    (hd : ∀ d ∈ declared, d.IsDeclarationShaped) (ht : ∀ t ∈ targets, t.IsTargetShaped) :
    (packageValue name declared targets).IsPackageShaped := by
  refine ⟨_, rfl, ?_⟩
  simp only [List.forall_mem_cons]
  exact ⟨forall_eq_some_of_given rfl ⟨name, rfl⟩, forall_eq_some_of_given rfl ⟨name, rfl⟩,
    forall_eq_some_of_given rfl ⟨"1.0.0", rfl⟩,
    forall_eq_some_of_given rfl (.inr ⟨"registry", rfl⟩),
    forall_eq_some_of_given rfl ⟨"/Cargo.toml", rfl⟩,
    forall_eq_some_of_given rfl ⟨targets, rfl, ht⟩,
    forall_eq_some_of_given rfl ⟨declared, rfl, hd⟩, forall_eq_some_of_missing rfl,
    List.forall_mem_nil _⟩

theorem isDocumentShaped_dependsOnLog (name member : String) :
    (dependsOnLog (strangeKind name) member).IsDocumentShaped := by
  have declared : (strangeKind name).IsDeclarationShaped := by
    refine ⟨_, rfl, ?_⟩
    simp only [List.forall_mem_cons]
    exact ⟨forall_eq_some_of_given rfl ⟨name, rfl⟩, forall_eq_some_of_missing rfl,
      forall_eq_some_of_given rfl (.inr ⟨"weird", rfl⟩), List.forall_mem_nil _⟩
  have library : Value.IsTargetShaped
      (.table [("name", .text "log"), ("kind", .list [.text "lib"])]) := by
    refine ⟨_, rfl, ?_⟩
    simp only [List.forall_mem_cons]
    exact ⟨forall_eq_some_of_given rfl ⟨"log", rfl⟩, forall_eq_some_of_given rfl
      ⟨_, rfl, List.forall_mem_singleton.2 ⟨"lib", rfl⟩⟩, List.forall_mem_nil _⟩
  have dependency : Value.IsDependencyShaped
      (.table [("pkg", .text "log"), ("name", .text "log")]) := by
    refine ⟨_, rfl, ?_⟩
    simp only [List.forall_mem_cons]
    exact ⟨forall_eq_some_of_given rfl ⟨"log", rfl⟩, forall_eq_some_of_given rfl ⟨"log", rfl⟩,
      forall_eq_some_of_missing rfl, List.forall_mem_nil _⟩
  have node : Value.IsNodeShaped (.table [("id", .text "app"), ("deps", .list
      [.table [("pkg", .text "log"), ("name", .text "log")]])]) := by
    refine ⟨_, rfl, ?_⟩
    simp only [List.forall_mem_cons]
    exact ⟨forall_eq_some_of_given rfl ⟨"app", rfl⟩, forall_eq_some_of_given rfl
      ⟨_, rfl, List.forall_mem_singleton.2 dependency⟩, List.forall_mem_nil _⟩
  refine ⟨_, rfl, ?_⟩
  simp only [List.forall_mem_cons]
  refine ⟨forall_eq_some_of_given rfl ⟨_, rfl, ?_⟩, forall_eq_some_of_given rfl
    ⟨_, rfl, List.forall_mem_singleton.2 ⟨member, rfl⟩⟩, forall_eq_some_of_given rfl (.inr
    ⟨_, rfl, List.forall_mem_singleton.2 (forall_eq_some_of_given rfl
      ⟨_, rfl, List.forall_mem_singleton.2 node⟩)⟩), List.forall_mem_nil _⟩
  simp only [List.forall_mem_cons]
  exact ⟨isPackageShaped_packageValue "app" (List.forall_mem_singleton.2 declared)
    (List.forall_mem_nil _), isPackageShaped_packageValue "log" (List.forall_mem_nil _)
    (List.forall_mem_singleton.2 library), List.forall_mem_nil _⟩

/-- The declaration of another package is not interpreted; a member that is no package is refused
in words. -/
theorem decides_strangeOther :
    (dependsOnLog (strangeKind "rand") "lib").IsDocumentShaped ∧
    ∃ doc, ResolverDocument.ofValue? (dependsOnLog (strangeKind "rand") "lib") = some doc ∧
      (ofValue (dependsOnLog (strangeKind "rand") "lib")).result =
        .error (.problem (.unknownPackage (.text "lib"))) ∧
      doc.IsExplained (ofValue (dependsOnLog (strangeKind "rand") "lib")).result := by
  have shaped := isDocumentShaped_dependsOnLog "rand" "lib"
  have result : (ofValue (dependsOnLog (strangeKind "rand") "lib")).result =
      .error (.problem (.unknownPackage (.text "lib"))) := rfl
  obtain ⟨doc, read, decides⟩ := decides_ofValue shaped
  refine ⟨shaped, doc, read, result, decides.explained_iff.2 fun d reached unmet => ?_⟩
  obtain ⟨f, refused⟩ := Option.ne_none_iff_exists'.1 unmet
  have failed := (Follows.error_iff decides.error_iff).2 ⟨d, reached, refused⟩
  cases result.symm.trans failed
  exact (ResolverDocument.isTold_iff_of_refusal? refused).2 ⟨_, rfl, rfl⟩

/-- A document that declares a resolved dependency in an unknown kind is inconsistent, and no
problem says so. -/
theorem not_isExplained_strangeKind :
    (dependsOnLog (strangeKind "log") "app").IsDocumentShaped ∧
    ∃ doc, ResolverDocument.ofValue? (dependsOnLog (strangeKind "log") "app") = some doc ∧
      doc.IsInconsistent ∧
      (ofValue (dependsOnLog (strangeKind "log") "app")).result =
        .error (.unknownKind (.text "weird")) ∧
      ¬doc.IsExplained (ofValue (dependsOnLog (strangeKind "log") "app")).result := by
  have result : (ofValue (dependsOnLog (strangeKind "log") "app")).result =
      .error (.unknownKind (.text "weird")) := rfl
  let log : DependencyEntry := ⟨.text "log", some (.text "log"), .absent⟩
  let app : NodeEntry := ⟨.text "app", .given [some log]⟩
  refine ⟨isDocumentShaped_dependsOnLog "log" "app", _, rfl, ?_, result, ?_⟩
  · have unknown : ¬(Value.text "weird").IsKind := by simp [Value.IsKind, DependencyKind.ofValue]
    exact .unknownDeclared (n := app) (d := log) (e := ⟨some "log", .text "weird", .absent⟩)
      List.mem_cons_self List.mem_cons_self rfl rfl List.mem_cons_self unknown
  · intro explained
    obtain ⟨p, hp, -⟩ := explained.told _ result
    cases hp

end Graph

end UnusedDeps
