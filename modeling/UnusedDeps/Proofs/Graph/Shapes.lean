import UnusedDeps.Proofs.Graph.Fidelity
import UnusedDeps.Proofs.Graph.Textual

/-!
# Shapes of resolver documents

The format of resolver documents says which keys a table has and what stands
under each of them; any key may be missing, and keys that nothing reads may have
any value. A document of this shape reads as entries whose fields have the right
types. Main statement: `isShaped_ofValue?`.
-/

namespace UnusedDeps

/-! ### Entries of the right types -/

/-- Whether a list field that may be left out holds tables with a property. -/
def Field.HasEntries {α : Type} (typed : α → Prop) (f : Field (List (Option α))) : Prop :=
  ∃ xs, f.listOrEmpty = .ok xs ∧ ∀ x ∈ xs, ∃ a, x = some a ∧ typed a

theorem Field.HasEntries.of_mem {α : Type} {typed : α → Prop} {f : Field (List (Option α))}
    (h : f.HasEntries typed) {xs : List (Option α)} (hxs : f.listOrEmpty = .ok xs) {a : α}
    (ha : some a ∈ xs) : typed a := by
  obtain ⟨ys, hys, each⟩ := h
  cases hxs.symm.trans hys
  obtain ⟨b, hb, hold⟩ := each _ ha
  cases hb
  exact hold

theorem Field.HasEntries.imp {α : Type} {P Q : α → Prop} {f : Field (List (Option α))}
    (h : f.HasEntries P) (sub : ∀ a, P a → Q a) : f.HasEntries Q := by
  obtain ⟨xs, hxs, each⟩ := h
  refine ⟨xs, hxs, fun x hx => ?_⟩
  obtain ⟨a, ha, hold⟩ := each x hx
  exact ⟨a, ha, sub a hold⟩

theorem exists_map_some {α : Type} {P : α → Prop} {xs : List (Option α)}
    (h : ∀ x ∈ xs, ∃ a, x = some a ∧ P a) : ∃ ys : List α, xs = ys.map some ∧ ∀ y ∈ ys, P y := by
  obtain ⟨ys, each⟩ := forall₂_of_forall_exists h
  refine ⟨ys, ?_, fun y hy => ?_⟩
  · rw [← List.forall₂_eq_eq_eq, List.forall₂_map_right_iff]
    exact each.imp fun _ _ hx => hx.1
  · obtain ⟨_, -, -, hold⟩ := exists_left_of_forall₂ each hy
    exact hold

/-- The entries of a field that holds tables only. -/
theorem Field.HasEntries.exists_eq {α : Type} {typed : α → Prop} {f : Field (List (Option α))}
    (h : f.HasEntries typed) : f.listOrEmpty = .ok (f.listed.reduceOption.map some) ∧
      ∀ a ∈ f.listed.reduceOption, typed a := by
  obtain ⟨xs, hxs, each⟩ := h
  obtain ⟨ys, rfl, hold⟩ := exists_map_some each
  have same : f.listed.reduceOption = ys := by
    rw [Field.listed_eq hxs, List.reduceOption, List.filterMap_map]
    exact List.filterMap_some
  rw [same]
  exact ⟨hxs, hold⟩

namespace Value

def IsTextOrNull (v : Value) : Prop := v = .null ∨ v.IsText

theorem IsText.isSome_key? {v : Value} (h : v.IsText) : v.key?.isSome = true := by
  obtain ⟨s, rfl⟩ := h
  rfl

end Value

/-- Whether the kind of a declaration is null or a text and its rename a text. -/
structure Declaration.IsShaped (d : Declaration) : Prop where
  kind : d.kind.IsTextOrNull
  rename : ¬(d.rename matches .malformed)

/-- Whether the name and the kinds of a target are texts. -/
structure TargetEntry.IsTyped (t : TargetEntry) : Prop where
  name : ∀ v, t.name = some v → v.IsText
  kinds : ∃ ks, t.kinds.listOrEmpty = .ok ks ∧ ∀ v ∈ ks, v.IsText

structure PackageEntry.IsShaped (p : PackageEntry) : Prop where
  rawId : ∀ v, p.rawId = some v → v.IsText
  name : ∀ v, p.name = some v → v.IsText
  version : ∀ v, p.version = some v → v.IsText
  source : ∀ v, p.source = some v → v.IsText
  manifest : ¬(p.manifestPath matches .malformed)
  dependencies : p.dependencies.HasEntries Declaration.IsShaped
  targets : p.targets.HasEntries TargetEntry.IsTyped
  metadata : ∃ m, p.metadata = .ok m

/-- Whether the fields of a dependency entry are texts, and its kinds texts or null. -/
structure DependencyEntry.IsTyped (d : DependencyEntry) : Prop where
  package : d.package.IsText
  name : ∀ v, d.name = some v → v.IsText
  kinds : ∃ ks, d.kindList = .ok ks ∧ ∀ k ∈ ks, ∃ v, k = some v ∧ (v = .null ∨ v.IsText)

structure NodeEntry.IsTyped (n : NodeEntry) : Prop where
  rawId : n.rawId.IsText
  deps : n.deps.HasEntries DependencyEntry.IsTyped

/-- Whether the fields of a document have the types of the format, whatever they name. -/
structure ResolverDocument.IsShaped (doc : ResolverDocument) : Prop where
  packages : doc.packages.HasEntries PackageEntry.IsShaped
  nodes : ¬(doc.nodes matches .malformed) ∧
    ∀ f, doc.nodes = .given f → f.HasEntries NodeEntry.IsTyped
  members : ∃ ms, doc.members.listOrEmpty = .ok ms ∧ ∀ m ∈ ms, m.IsText

theorem PackageEntry.IsShaped.isTextual {p : PackageEntry} (h : p.IsShaped) : p.IsTextual where
  name := h.name
  version := h.version
  source := h.source
  targets := fun _ hts _ ht => (h.targets.of_mem hts ht).name

theorem ResolverDocument.IsShaped.isTextual {doc : ResolverDocument} (h : doc.IsShaped) :
    doc.IsTextual where
  packages := fun _ hps _ hp => (h.packages.of_mem hps hp).isTextual
  aliases := fun f _ hf hns _ hn _ hds _ hd =>
    (((h.nodes.2 f hf).of_mem hns hn).deps.of_mem hds hd).name

/-- A dependency entry of the right types always has a kind. -/
theorem DependencyEntry.IsTyped.exists_kindEntry {d : DependencyEntry} (h : d.IsTyped) :
    ∃ v, some v ∈ d.kindEntries := by
  obtain ⟨ks, hks, each⟩ := h.kinds
  unfold DependencyEntry.kindList at hks
  unfold DependencyEntry.kindEntries
  cases kinds : d.kinds with
  | absent => exact ⟨.null, List.mem_cons_self⟩
  | malformed =>
    rw [kinds] at hks
    cases hks
  | given given =>
    rw [kinds] at hks
    cases hks
    cases ks with
    | nil => exact ⟨.null, List.mem_cons_self⟩
    | cons k ks =>
      obtain ⟨v, rfl, -⟩ := each k List.mem_cons_self
      exact ⟨v, List.mem_cons_self⟩

theorem ResolverDocument.IsShaped.nodeEntries {doc : ResolverDocument} (h : doc.IsShaped) :
    ∀ n ∈ doc.nodeEntries, n.IsTyped := by
  unfold ResolverDocument.nodeEntries
  cases hn : doc.nodes with
  | given f => exact (h.nodes.2 f hn).exists_eq.2
  | _ => exact List.forall_mem_nil _

/-! ### Libraries -/

theorem keysOf?_isSome {vs : List Value} (h : ∀ v ∈ vs, v.IsText) :
    ∃ ks, keysOf? vs = some ks := by
  induction vs with
  | nil => exact ⟨[], rfl⟩
  | cons v vs ih =>
    rw [List.forall_mem_cons] at h
    obtain ⟨s, rfl⟩ := h.1
    obtain ⟨ks, hks⟩ := ih h.2
    refine ⟨.text s :: ks, ?_⟩
    rw [keysOf?] at hks ⊢
    rw [List.mapM_cons, hks, key?_text]
    rfl

theorem TargetEntry.IsTyped.isLibrary {t : TargetEntry} (h : t.IsTyped) :
    ∃ b, t.isLibrary = .ok b := by
  obtain ⟨ks, hks, texts⟩ := h.kinds
  obtain ⟨keys, hkeys⟩ := keysOf?_isSome texts
  unfold TargetEntry.isLibrary
  cases kinds : t.kinds with
  | absent => exact ⟨false, rfl⟩
  | malformed =>
    rw [kinds] at hks
    cases hks
  | given ks' =>
    rw [kinds] at hks
    cases hks
    exact ⟨_, bind_eq_ok.2 ⟨keys, orWrongType_eq_ok.2 hkeys, rfl⟩⟩

theorem libraryName_isOk {ts : List (Option TargetEntry)}
    (h : ∀ t ∈ ts, ∃ t', t = some t' ∧ t'.IsTyped) : ∃ v, libraryName ts = .ok v := by
  induction ts with
  | nil => exact ⟨none, rfl⟩
  | cons t ts ih =>
    rw [List.forall_mem_cons] at h
    obtain ⟨t, rfl, typed⟩ := h.1
    obtain ⟨b, hb⟩ := typed.isLibrary
    obtain ⟨v, hv⟩ := ih h.2
    rw [libraryName, hb]
    cases b with
    | true => exact ⟨t.name, rfl⟩
    | false => exact ⟨v, hv⟩

/-! ### Shapes -/

namespace Value

/-- Whether a value is a list whose elements have a shape. -/
def IsListOf (shape : Value → Prop) (v : Value) : Prop := ∃ vs, v = .list vs ∧ ∀ w ∈ vs, shape w

/-- Whether a value is a table that has values of given shapes under given keys, wherever it has
any there. -/
def IsTableOf (shapes : List (String × (Value → Prop))) (v : Value) : Prop :=
  ∃ fields, v = .table fields ∧
    ∀ s ∈ shapes, ∀ w, Mapping.get? fields s.1 = some w → s.2 w

def IsTargetShaped : Value → Prop := IsTableOf [("name", IsText), ("kind", IsListOf IsText)]

def IsDeclarationShaped : Value → Prop :=
  IsTableOf [("name", IsText), ("rename", IsTextOrNull), ("kind", IsTextOrNull)]

def IsPackageShaped : Value → Prop :=
  IsTableOf [("id", IsText), ("name", IsText), ("version", IsText), ("source", IsTextOrNull),
    ("manifest_path", IsText), ("targets", IsListOf IsTargetShaped),
    ("dependencies", IsListOf IsDeclarationShaped),
    ("metadata", fun v => v = .null ∨ v.IsTableOf [])]

def IsDependencyShaped : Value → Prop :=
  IsTableOf [("name", IsText), ("pkg", IsText),
    ("dep_kinds", IsListOf (IsTableOf [("kind", IsTextOrNull)]))]

def IsNodeShaped : Value → Prop :=
  IsTableOf [("id", IsText), ("deps", IsListOf IsDependencyShaped)]

/-- Whether a value has the shape of a resolver document. -/
def IsDocumentShaped : Value → Prop :=
  IsTableOf [("packages", IsListOf IsPackageShaped), ("workspace_members", IsListOf IsText),
    ("resolve", fun v => v = .null ∨ v.IsTableOf [("nodes", IsListOf IsNodeShaped)])]

end Value

/-! ### Reading -/

theorem Field.hasEntries_entries {α : Type} {read : Fields → α} {typed : α → Prop}
    {shape : Value → Prop} {v : Option Value} (h : ∀ w, v = some w → w.IsListOf shape)
    (each : ∀ w, shape w → ∃ fields, w = .table fields ∧ typed (read fields)) :
    (Field.ofOption (Field.entries read) v).HasEntries typed := by
  cases v with
  | none => exact ⟨[], rfl, List.forall_mem_nil _⟩
  | some w =>
    obtain ⟨vs, rfl, shaped⟩ := h w rfl
    refine ⟨_, rfl, fun x hx => ?_⟩
    obtain ⟨w, hw, rfl⟩ := List.mem_map.1 hx
    obtain ⟨fields, rfl, hold⟩ := each w (shaped w hw)
    exact ⟨read fields, rfl, hold⟩

theorem Field.elements_ofOption {shape : Value → Prop} {v : Option Value}
    (h : ∀ w, v = some w → w.IsListOf shape) :
    ∃ vs, (Field.ofOption Field.elements v).listOrEmpty = .ok vs ∧ ∀ w ∈ vs, shape w := by
  cases v with
  | none => exact ⟨[], rfl, List.forall_mem_nil _⟩
  | some w =>
    obtain ⟨vs, rfl, shaped⟩ := h w rfl
    exact ⟨vs, rfl, shaped⟩

theorem isText_getD {v : Option Value} (h : ∀ w, v = some w → w.IsText) (s : String) :
    (v.getD (.text s)).IsText := by
  cases v with
  | none => exact ⟨s, rfl⟩
  | some w => exact h w rfl

theorem isTextOrNull_getD {v : Option Value} (h : ∀ w, v = some w → w.IsTextOrNull) :
    (v.getD .null).IsTextOrNull := by
  cases v with
  | none => exact .inl rfl
  | some w => exact h w rfl

theorem TargetEntry.isTyped_ofFields {v : Value} (h : v.IsTargetShaped) :
    ∃ fields, v = .table fields ∧ (TargetEntry.ofFields fields).IsTyped := by
  obtain ⟨fields, rfl, shapes⟩ := h
  simp only [List.forall_mem_cons] at shapes
  obtain ⟨name, kinds, -⟩ := shapes
  refine ⟨fields, rfl, fun v hv => ?_, Field.elements_ofOption kinds⟩
  obtain ⟨hv, -⟩ := Option.filter_eq_some_iff.1 hv
  exact name v hv

theorem Declaration.isShaped_ofFields {v : Value} (h : v.IsDeclarationShaped) :
    ∃ fields, v = .table fields ∧ (Declaration.ofFields fields).IsShaped := by
  obtain ⟨fields, rfl, shapes⟩ := h
  simp only [List.forall_mem_cons] at shapes
  obtain ⟨-, rename, kind, -⟩ := shapes
  refine ⟨fields, rfl, isTextOrNull_getD kind, ?_⟩
  rw [Declaration.ofFields]
  dsimp only
  cases hr : Mapping.get? fields "rename" with
  | none => simp [Field.ofOption]
  | some r =>
    rw [Field.ofOption]
    obtain rfl | ⟨s, rfl⟩ := rename r hr
    · simp [Field.truthyText, Value.isTruthy]
    · by_cases truthy : (Value.text s).isTruthy = true
      · simp [Field.truthyText, truthy, Field.text]
      · simp [Field.truthyText, truthy]

theorem PackageEntry.isShaped_ofFields {v : Value} (h : v.IsPackageShaped) :
    ∃ fields, v = .table fields ∧ (PackageEntry.ofFields fields).IsShaped := by
  obtain ⟨fields, rfl, shapes⟩ := h
  simp only [List.forall_mem_cons] at shapes
  obtain ⟨id, name, version, source, manifest, targets, dependencies, metadata, -⟩ := shapes
  refine ⟨fields, rfl, id, name, version, ?_, ?_, Field.hasEntries_entries dependencies fun _ =>
    Declaration.isShaped_ofFields, Field.hasEntries_entries targets fun _ =>
    TargetEntry.isTyped_ofFields, ?_⟩
  · intro v hv
    obtain ⟨hv, truthy⟩ := Option.filter_eq_some_iff.1 hv
    obtain rfl | text := source v hv
    · cases truthy
    · exact text
  · rw [PackageEntry.ofFields]
    dsimp only
    cases hm : Mapping.get? fields "manifest_path" with
    | none => simp [Field.ofOption]
    | some m =>
      obtain ⟨s, rfl⟩ := manifest m hm
      simp [Field.ofOption, Field.text]
  · rw [PackageEntry.ofFields]
    dsimp only
    split
    · rename_i v hv
      obtain ⟨hv, truthy⟩ := Option.filter_eq_some_iff.1 hv
      obtain rfl | ⟨entries, rfl, -⟩ := metadata v hv
      · cases truthy
      · exact ⟨_, rfl⟩
    · exact ⟨_, rfl⟩

theorem DependencyEntry.isTyped_ofFields {v : Value} (h : v.IsDependencyShaped) :
    ∃ fields, v = .table fields ∧ (DependencyEntry.ofFields fields).IsTyped := by
  obtain ⟨fields, rfl, shapes⟩ := h
  simp only [List.forall_mem_cons] at shapes
  obtain ⟨name, package, kinds, -⟩ := shapes
  refine ⟨fields, rfl, isText_getD package "", name, ?_⟩
  have absent : ∀ k ∈ [some Value.null], ∃ v, k = some v ∧ (v = .null ∨ v.IsText) := by
    simp
  rw [DependencyEntry.ofFields, DependencyEntry.kindList]
  dsimp only
  cases hk : Mapping.get? fields "dep_kinds" with
  | none => exact ⟨_, rfl, absent⟩
  | some w =>
    obtain ⟨vs, rfl, each⟩ := kinds w hk
    rw [Field.ofOption, DependencyEntry.kindsOf]
    by_cases truthy : (Value.list vs).isTruthy = true
    · rw [if_pos truthy]
      refine ⟨_, rfl, fun k hk => ?_⟩
      obtain ⟨w, hw, rfl⟩ := List.mem_map.1 hk
      obtain ⟨entry, rfl, shapes⟩ := each w hw
      rw [List.forall_mem_singleton] at shapes
      exact ⟨_, rfl, isTextOrNull_getD shapes⟩
    · rw [if_neg truthy]
      exact ⟨_, rfl, absent⟩

theorem NodeEntry.isTyped_ofFields {v : Value} (h : v.IsNodeShaped) :
    ∃ fields, v = .table fields ∧ (NodeEntry.ofFields fields).IsTyped := by
  obtain ⟨fields, rfl, shapes⟩ := h
  simp only [List.forall_mem_cons] at shapes
  obtain ⟨id, deps, -⟩ := shapes
  exact ⟨fields, rfl, isText_getD id "", Field.hasEntries_entries deps fun _ =>
    DependencyEntry.isTyped_ofFields⟩

/-- A value of the shape of a resolver document is one, and its fields have the right types. -/
theorem ResolverDocument.isShaped_ofValue? {v : Value} (h : v.IsDocumentShaped) :
    ∃ doc, ofValue? v = some doc ∧ doc.IsShaped := by
  obtain ⟨fields, rfl, shapes⟩ := h
  simp only [List.forall_mem_cons] at shapes
  obtain ⟨packages, members, resolve, -⟩ := shapes
  refine ⟨_, rfl, Field.hasEntries_entries packages fun _ => PackageEntry.isShaped_ofFields, ?_,
    Field.elements_ofOption members⟩
  dsimp only
  cases hr : Mapping.get? fields "resolve" with
  | none =>
    refine ⟨by simp [Field.ofOption], fun f hf => ?_⟩
    cases hf
  | some r =>
    rw [Field.ofOption]
    unfold nodesOf
    by_cases truthy : r.isTruthy = true
    · rw [if_pos truthy]
      obtain rfl | ⟨entries, rfl, shapes⟩ := resolve r hr
      · cases truthy
      · rw [List.forall_mem_singleton] at shapes
        refine ⟨by simp, fun f hf => ?_⟩
        cases hf
        exact Field.hasEntries_entries shapes fun _ => NodeEntry.isTyped_ofFields
    · rw [if_neg truthy]
      refine ⟨by simp, fun f hf => ?_⟩
      cases hf

end UnusedDeps
