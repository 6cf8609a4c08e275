import UnusedDeps.Proofs.Graph.Reordering

/-!
# Documents whose arrays are in another order

A document is a value whose tables and lists stand inside one another. Values
whose lists of packages, nodes, dependency entries and kinds are in another
order, and whose lists of members may repeat themselves, read as documents that
differ in just that. Main statement: `same_ofValue`. Both values are accepted or
both refused, and what is listed and analysed of their graphs is the same.
-/

namespace UnusedDeps

/-! ### Values in another order -/

namespace Value

/-- Whether two values are the same, or lists of which the second one has counterparts of the items
of the first one, in any order. -/
inductive Rearranges (R : Value → Value → Prop) : Value → Value → Prop where
  | same (v : Value) : Rearranges R v v
  | lists {xs ys : List Value} (h : Rearranged R xs ys) : Rearranges R (.list xs) (.list ys)

/-- Whether two values are the same, or lists of the same items, in any order and any number. -/
inductive Repeats : Value → Value → Prop where
  | same (v : Value) : Repeats v v
  | lists {xs ys : List Value} (h : ∀ v, v ∈ xs ↔ v ∈ ys) : Repeats (.list xs) (.list ys)

/-- Whether two values are the same, or tables with fields of the same names that are related, each
by the relation for its name. -/
inductive Agrees (R : String → Value → Value → Prop) : Value → Value → Prop where
  | same (v : Value) : Agrees R v v
  | tables {fs gs : Fields}
      (h : ∀ name, Option.Rel (R name) (Mapping.get? fs name) (Mapping.get? gs name)) :
      Agrees R (.table fs) (.table gs)

/-- A relation for one field, where the others are the same. -/
def only (field : String) (R : Value → Value → Prop) (name : String) : Value → Value → Prop :=
  if name = field then R else Eq

/-- Dependency entries whose kinds are in another order. -/
def ReordersEntry : Value → Value → Prop := Agrees (only "dep_kinds" (Rearranges Eq))

/-- Nodes whose dependency entries are in another order. -/
def ReordersNode : Value → Value → Prop := Agrees (only "deps" (Rearranges ReordersEntry))

/-- Resolve sections whose nodes are in another order. -/
def ReordersResolve : Value → Value → Prop := Agrees (only "nodes" (Rearranges ReordersNode))

/-- How the fields of a document are related whose arrays are in another order. -/
def ReordersField (name : String) : Value → Value → Prop :=
  if name = "packages" then Rearranges Eq
  else if name = "resolve" then ReordersResolve
  else if name = "workspace_members" then Repeats
  else Eq

/-- Documents whose arrays are in another order, where members may be repeated. -/
def ReordersDocument : Value → Value → Prop := Agrees ReordersField

end Value

/-! ### Reading them -/

namespace Field

theorem rel_ofOption {α β : Type} {R : Value → Value → Prop} {S : α → β → Prop}
    {read : Value → Field α} {read' : Value → Field β}
    (step : ∀ v w, R v w → Field.Rel S (read v) (read' w)) {x y : Option Value}
    (h : Option.Rel R x y) : Field.Rel S (ofOption read x) (ofOption read' y) := by
  cases h with
  | none => exact .absent
  | some hvw => exact step _ _ hvw

section

variable {α : Type} {read : Fields → α} {v w : Value}

theorem perm_entries (h : v.Rearranges Eq w) :
    Field.Rel List.Perm (entries read v) (entries read w) := by
  cases h with
  | same => exact Field.Rel.refl List.Perm.refl _
  | lists h => exact .given (h.perm.map _)

/-- The entries of lists in another order, when related tables are read as related entries. -/
theorem rearranged_entries {R : String → Value → Value → Prop} {S : α → α → Prop}
    (refl : ∀ a, S a a)
    (step : ∀ fs gs : Fields,
      (∀ name, Option.Rel (R name) (Mapping.get? fs name) (Mapping.get? gs name)) →
      S (read fs) (read gs)) (h : v.Rearranges (Value.Agrees R) w) :
    Field.Rel (Rearranged (Option.Rel S)) (entries read v) (entries read w) := by
  cases h with
  | same => exact Field.Rel.refl (Rearranged.refl (Option.Rel.refl_of refl)) _
  | lists h =>
    refine .given (h.map fun a b hab => ?_)
    cases hab with
    | same => exact Option.Rel.refl_of refl _
    | tables hfs => exact .some (step _ _ hfs)

end

end Field

namespace Value

theorem isTruthy_rearranges {R : Value → Value → Prop} {v w : Value} (h : v.Rearranges R w) :
    v.isTruthy = w.isTruthy := by
  cases h with
  | same => rfl
  | lists h =>
    obtain ⟨zs, perm, each⟩ := h
    have length := perm.length_eq.trans each.length_eq
    rw [Bool.eq_iff_iff]
    simp [isTruthy, ← List.length_eq_zero_iff, length]

section

variable {R : String → Value → Value → Prop} {fs gs : Fields}
  (h : ∀ name, Option.Rel (R name) (Mapping.get? fs name) (Mapping.get? gs name))

include h

theorem isEmpty_of_agrees (empty : fs.isEmpty = true) : gs.isEmpty = true := by
  cases gs with
  | nil => rfl
  | cons f gs =>
    have found := h f.1
    rw [List.isEmpty_iff.1 empty] at found
    have given : Mapping.get? (f :: gs) f.1 = some f.2 := by simp [Mapping.get?]
    rw [given] at found
    cases found

theorem isTruthy_agrees : (Value.table fs).isTruthy = (Value.table gs).isTruthy := by
  have back : ∀ name, Option.Rel (fun w v => R name v w) (Mapping.get? gs name)
      (Mapping.get? fs name) := fun name => Option.Rel.symm_of id (h name)
  have iff : fs.isEmpty = true ↔ gs.isEmpty = true :=
    ⟨isEmpty_of_agrees h, isEmpty_of_agrees back⟩
  simp only [isTruthy, Bool.eq_iff_iff.2 iff]

theorem get?_eq_of_agrees {name : String} (same : R name = Eq) :
    Mapping.get? fs name = Mapping.get? gs name := by
  have related := h name
  rw [same] at related
  generalize Mapping.get? fs name = x, Mapping.get? gs name = y at related ⊢
  cases related with
  | none => rfl
  | some same => exact congrArg some same

end

theorem only_ne {field name : String} (R : Value → Value → Prop) (h : name ≠ field) :
    only field R name = Eq := if_neg h

theorem only_self (field : String) (R : Value → Value → Prop) : only field R field = R :=
  if_pos rfl

end Value

theorem DependencyEntry.reorders_ofFields {fs gs : Fields}
    (h : ∀ name, Option.Rel (Value.only "dep_kinds" (Value.Rearranges Eq) name)
      (Mapping.get? fs name) (Mapping.get? gs name)) :
    (ofFields fs).Reorders (ofFields gs) where
  package := by
    rw [ofFields, ofFields, Value.get?_eq_of_agrees h (Value.only_ne _ (by decide))]
  name := Value.get?_eq_of_agrees h (Value.only_ne _ (by decide))
  kinds := by
    have kinds := h "dep_kinds"
    rw [Value.only_self] at kinds
    refine Field.rel_ofOption (fun v w hvw => ?_) kinds
    unfold kindsOf
    rw [Value.isTruthy_rearranges hvw]
    split
    · exact Field.perm_entries hvw
    · exact .absent

theorem DependencyEntry.Reorders.refl (d : DependencyEntry) : d.Reorders d :=
  ⟨rfl, rfl, Field.Rel.refl List.Perm.refl _⟩

theorem NodeEntry.Reorders.refl (n : NodeEntry) : n.Reorders n :=
  ⟨rfl, Field.Rel.refl (Rearranged.refl (Option.Rel.refl_of DependencyEntry.Reorders.refl)) _⟩

theorem NodeEntry.rearranged_refl (ns : List (Option NodeEntry)) :
    Rearranged (Option.Rel Reorders) ns ns :=
  Rearranged.refl (Option.Rel.refl_of Reorders.refl) ns

theorem NodeEntry.reorders_ofFields {fs gs : Fields}
    (h : ∀ name, Option.Rel (Value.only "deps" (Value.Rearranges Value.ReordersEntry) name)
      (Mapping.get? fs name) (Mapping.get? gs name)) :
    (ofFields fs).Reorders (ofFields gs) where
  rawId := by
    rw [ofFields, ofFields, Value.get?_eq_of_agrees h (Value.only_ne _ (by decide))]
  deps := by
    have deps := h "deps"
    rw [Value.only_self] at deps
    exact Field.rel_ofOption (fun v w hvw => Field.rearranged_entries
      DependencyEntry.Reorders.refl (fun _ _ => DependencyEntry.reorders_ofFields) hvw) deps

namespace ResolverDocument

theorem reorders_nodesOf {v w : Value} (h : v.ReordersResolve w) :
    Field.Rel (Field.Rel (Rearranged (Option.Rel NodeEntry.Reorders))) (nodesOf v) (nodesOf w) := by
  cases h with
  | same => exact Field.Rel.refl (Field.Rel.refl NodeEntry.rearranged_refl) _
  | tables hfs =>
    have nodes := hfs "nodes"
    rw [Value.only_self] at nodes
    -- Whether the section counts as left out does not depend on the order of its nodes.
    unfold nodesOf
    rw [Value.isTruthy_agrees hfs]
    split
    · exact .given (Field.rel_ofOption (fun v w hvw => Field.rearranged_entries
        NodeEntry.Reorders.refl (fun _ _ => NodeEntry.reorders_ofFields) hvw) nodes)
    · exact .absent

theorem repeats_elements {v w : Value} (h : v.Repeats w) :
    Field.Rel (fun xs ys => ∀ u, u ∈ xs ↔ u ∈ ys) (Field.elements v) (Field.elements w) := by
  cases h with
  | same => exact Field.Rel.refl (fun _ _ => Iff.rfl) _
  | lists h => exact .given h

theorem Reorders.refl (doc : ResolverDocument) : doc.Reorders doc where
  packages := Field.Rel.refl List.Perm.refl _
  nodes := Field.Rel.refl (Field.Rel.refl NodeEntry.rearranged_refl) _
  members := Field.Rel.refl (fun _ _ => Iff.rfl) _

/-- Values whose arrays are in another order read as documents that differ in just that. -/
theorem exists_reorders {v w : Value} {doc : ResolverDocument} (hdoc : ofValue? v = some doc)
    (h : v.ReordersDocument w) : ∃ doc', ofValue? w = some doc' ∧ doc.Reorders doc' := by
  cases h with
  | same => exact ⟨doc, hdoc, .refl doc⟩
  | tables h =>
    cases hdoc
    have packages : Option.Rel (Value.Rearranges Eq) _ _ := h "packages"
    have resolve : Option.Rel Value.ReordersResolve _ _ := h "resolve"
    have members : Option.Rel Value.Repeats _ _ := h "workspace_members"
    refine ⟨_, rfl, ?_, ?_, ?_⟩
    · exact Field.rel_ofOption (fun _ _ hvw => Field.perm_entries hvw) packages
    · exact Field.rel_ofOption (fun _ _ hvw => reorders_nodesOf hvw) resolve
    · exact Field.rel_ofOption (fun _ _ hvw => repeats_elements hvw) members

end ResolverDocument

/-! ### The graphs of such values -/

namespace Graph

theorem ofValue_eq_ok_iff [Whereabouts] {v : Value} {doc : ResolverDocument}
    (hdoc : ResolverDocument.ofValue? v = some doc) {g : Graph} :
    (Graph.ofValue v).result = .ok g ↔ Graph.ofDocument doc = .ok g := by
  rw [ofValue_eq_ok]
  constructor
  · rintro ⟨doc', hdoc', h⟩
    cases hdoc.symm.trans hdoc'
    exact h
  · exact fun h => ⟨doc, hdoc, h⟩

/-- Values that differ only in the order of the arrays of a document are accepted alike, and what is
listed and analysed of their graphs is the same. -/
theorem same_ofValue [Whereabouts] {v w : Value} {doc : ResolverDocument}
    (hdoc : ResolverDocument.ofValue? v = some doc) (h : v.ReordersDocument w)
    (distinct : doc.HasDistinctPackages) (apart : doc.HasDistinctNodes)
    (settled : doc.HasSettledAliases) :
    ((∃ g, (Graph.ofValue v).result = .ok g) ↔ ∃ g', (Graph.ofValue w).result = .ok g') ∧
    ∀ g g', (Graph.ofValue v).result = .ok g → (Graph.ofValue w).result = .ok g' → doc.IsCoded →
      g.SameListings g' := by
  obtain ⟨doc', hdoc', reorders⟩ := ResolverDocument.exists_reorders hdoc h
  simp only [ofValue_eq_ok_iff hdoc, ofValue_eq_ok_iff hdoc']
  exact same_ofDocument reorders distinct apart settled

end Graph

/-! ### A small workspace -/

section Registry

variable {doc : ResolverDocument} {ps : List (String × List Declaration × Option String)}
  (h : doc.packageEntries = ps.map fun p => registryEntry p.1 p.2.1 p.2.2)

include h

theorem hasDistinctNodes_of_registry [Whereabouts]
    (ids : doc.nodeEntries.Pairwise fun n m => ¬n.rawId.sameKey m.rawId = true) :
    doc.HasDistinctNodes := by
  refine ids.imp fun {n m} hnm p a q b ha hb => ?_
  obtain ⟨name, rfl, hname⟩ := finds_of_registry h ha
  obtain ⟨other, rfl, hother⟩ := finds_of_registry h hb
  rw [← Bool.not_eq_true, registryId, registryId, PackageId.same_texts]
  rintro ⟨rfl, -⟩
  exact hnm (Value.sameKey_trans (Value.sameKey_symm hname) hother)

/-- The aliases of packages from a registry are settled when each is the name of its package. -/
theorem hasSettledAliases_of_registry [Whereabouts]
    (aliases : ∀ n ∈ doc.nodeEntries, ∀ d ∈ n.entries,
    ∃ a, d.package = .text a ∧ d.name = some (.text a)) : doc.HasSettledAliases := by
  have said {n : NodeEntry} (hn : n ∈ doc.nodeEntries) {o : Occurrence} (ho : o ∈ n.occurrences)
      {e : Edge} (he : doc.Denotes o e) :
      ∃ a, e.externName = .text a ∧ e.target = registryId a := by
    obtain ⟨d, hd, hmem⟩ := List.mem_flatMap.1 ho
    obtain ⟨kind, -, rfl⟩ := List.mem_map.1 hmem
    obtain ⟨a, hpackage, hname⟩ := aliases n hn d hd
    obtain ⟨p, -, name, -, halias, -⟩ := he.source
    obtain ⟨q, hq, -⟩ := he.target
    obtain ⟨found, htarget, same⟩ := finds_of_registry h hq
    rw [hpackage, Value.sameKey_texts] at same
    refine ⟨a, ?_, same ▸ htarget⟩
    rw [halias, hname]
    rfl
  intro n hn o ho o' ho' e f he hf hs
  obtain ⟨a, hea, heta⟩ := said hn ho he
  obtain ⟨b, hfb, hftb⟩ := said hn ho' hf
  have targets := (Edge.sameEntry_iff.1 hs).2.1
  rw [heta, hftb, registryId, registryId, PackageId.same_texts] at targets
  rw [hea, hfb, targets.1]

end Registry

theorem Mapping.get?_append_singleton (fs : Fields) (field : String) (v : Value) (name : String) :
    Mapping.get? (fs ++ [(field, v)]) name =
      (Mapping.get? fs name).or (if field = name then some v else none) := by
  unfold Mapping.get?
  rw [List.find?_append, Option.map_or]
  congr 1
  by_cases h : field = name <;> simp [h]

namespace Value

theorem agrees_only {field : String} {R : Value → Value → Prop} (fs : Fields) {v w : Value}
    (fresh : Mapping.get? fs field = none) (h : R v w) :
    Agrees (only field R) (.table (fs ++ [(field, v)])) (.table (fs ++ [(field, w)])) := by
  refine .tables fun name => ?_
  rw [Mapping.get?_append_singleton, Mapping.get?_append_singleton]
  by_cases hname : name = field
  · subst hname
    rw [only_self, fresh, if_pos rfl, if_pos rfl]
    exact .some h
  · rw [only_ne R hname, if_neg (Ne.symm hname), if_neg (Ne.symm hname)]
    exact Option.Rel.refl_of (fun _ => rfl) _

/-- A document of packages from a registry, of which `app` is a member with dependencies. -/
def memberDocument (packages deps members : List Value) : Value :=
  .table [("packages", .list packages),
    ("resolve", .table [("nodes", .list [.table [("id", .text "app"), ("deps", .list deps)]])]),
    ("workspace_members", .list members)]

theorem reorders_memberDocument {packages packages' deps deps' members members' : List Value}
    (hp : packages.Perm packages') (hd : Rearranged ReordersEntry deps deps')
    (hm : ∀ v, v ∈ members ↔ v ∈ members') :
    (memberDocument packages deps members).ReordersDocument
      (memberDocument packages' deps' members') := by
  have node : ReordersNode (.table [("id", .text "app"), ("deps", .list deps)])
      (.table [("id", .text "app"), ("deps", .list deps')]) :=
    agrees_only [("id", .text "app")] rfl (.lists hd)
  have resolve : ReordersResolve
      (.table [("nodes", .list [.table [("id", .text "app"), ("deps", .list deps)]])])
      (.table [("nodes", .list [.table [("id", .text "app"), ("deps", .list deps')]])]) :=
    agrees_only [] rfl (.lists ⟨_, .refl _, .cons node .nil⟩)
  have packaged : Rearranges Eq (.list packages) (.list packages') :=
    .lists ⟨_, hp, List.forall₂_same.2 fun _ _ => rfl⟩
  refine .tables fun name => ?_
  simp only [Mapping.get?, List.find?_cons, List.find?_nil]
  by_cases h₁ : name = "packages"
  · subst h₁
    exact .some packaged
  · by_cases h₂ : name = "resolve"
    · subst h₂
      exact .some resolve
    · by_cases h₃ : name = "workspace_members"
      · subst h₃
        exact .some (.lists hm)
      · simp only [Ne.symm h₁, Ne.symm h₂, Ne.symm h₃, decide_false]
        exact .none

/-- A dependency entry for a package from a registry. -/
def entryFor (name : String) (kinds : List String) : Value :=
  .table [("pkg", .text name), ("name", .text name),
    ("dep_kinds", .list (kinds.map fun k => .table [("kind", .text k)]))]

theorem reorders_entryFor (name : String) {kinds kinds' : List String} (h : kinds.Perm kinds') :
    (entryFor name kinds).ReordersEntry (entryFor name kinds') :=
  agrees_only [("pkg", .text name), ("name", .text name)] rfl
    (.lists ⟨_, h.map _, List.forall₂_same.2 fun _ _ => rfl⟩)

end Value

namespace Graph

/-- A member, and two packages with a library that it depends on. -/
def appPackages : List Value :=
  let declared (name : String) (kind : Value) : Value :=
    .table [("name", .text name), ("kind", kind)]
  let library (name : String) : Value :=
    .table [("name", .text name), ("kind", .list [.text "lib"])]
  [packageValue "app" [declared "log" .null, declared "time" "dev", declared "time" "build"] [],
    packageValue "log" [] [library "log"], packageValue "time" [] [library "time"]]

def logFirst : Value :=
  .memberDocument appPackages [.entryFor "log" [], .entryFor "time" ["dev", "build"]]
    [.text "app"]

/-- The same with every array the other way round, and with the member named twice. -/
def timeFirst : Value :=
  .memberDocument appPackages.reverse [.entryFor "time" ["build", "dev"], .entryFor "log" []]
    [.text "app", .text "app"]

theorem reorders_timeFirst : logFirst.ReordersDocument timeFirst := by
  refine Value.reorders_memberDocument (List.reverse_perm _).symm ?_ fun v => by simp
  have time := Value.reorders_entryFor "time" (List.Perm.swap "build" "dev" [])
  exact ⟨_, .swap _ _ _, .cons time (.cons (.same _) .nil)⟩

theorem same_timeFirst : ∃ g g', (Graph.ofValue logFirst).result = .ok g ∧
    (Graph.ofValue timeFirst).result = .ok g' ∧ g.SameListings g' := by
  let log : Declaration := ⟨some "log", .null, .absent⟩
  let time (kind : String) : Declaration := ⟨some "time", .text kind, .absent⟩
  let ps : List (String × List Declaration × Option String) :=
    [("app", [log, time "dev", time "build"], none), ("log", [], some "log"),
      ("time", [], some "time")]
  let onLog : DependencyEntry := ⟨.text "log", some (.text "log"), .absent⟩
  let onTime : DependencyEntry := ⟨.text "time", some (.text "time"),
    .given [some (.text "dev"), some (.text "build")]⟩
  let doc : ResolverDocument := {
    packages := .given (ps.map fun p => some (registryEntry p.1 p.2.1 p.2.2))
    nodes := .given (.given [some ⟨.text "app", .given [some onLog, some onTime]⟩])
    members := .given [.text "app"] }
  have hdoc : ResolverDocument.ofValue? logFirst = some doc := rfl
  have entries : doc.packageEntries = ps.map fun p => registryEntry p.1 p.2.1 p.2.2 := rfl
  have distinct : doc.HasDistinctPackages := hasDistinctPackages_of_registry entries (by decide)
  have apart : doc.HasDistinctNodes :=
    hasDistinctNodes_of_registry entries (List.pairwise_singleton _ _)
  have settled : doc.HasSettledAliases := by
    refine hasSettledAliases_of_registry entries fun n hn d hd => ?_
    cases List.mem_singleton.1 hn
    have hd : d ∈ [onLog, onTime] := hd
    simp only [List.mem_cons, List.not_mem_nil, or_false] at hd
    rcases hd with rfl | rfl
    · exact ⟨"log", rfl, rfl⟩
    · exact ⟨"time", rfl, rfl⟩
  have coded : doc.IsCoded := by
    refine isCoded_of_registry entries ?_ ?_
    · simp only [ps, List.forall_mem_cons, List.not_mem_nil, false_imp_iff, implies_true, and_true]
      exact ⟨Text.isCoded_of_plain (by decide), Text.isCoded_of_plain (by decide),
        Text.isCoded_of_plain (by decide)⟩
    · simp [ps, log, time]
  obtain ⟨-, same⟩ := same_ofValue hdoc reorders_timeFirst distinct apart settled
  have h : (Graph.ofValue logFirst).result = .ok _ := rfl
  have h' : (Graph.ofValue timeFirst).result = .ok _ := rfl
  exact ⟨_, _, h, h', same _ _ h h' coded⟩

end Graph

end UnusedDeps
