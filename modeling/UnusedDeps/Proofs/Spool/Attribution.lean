import UnusedDeps.Proofs.Cargo.Replay
import UnusedDeps.Proofs.Graph.Faithful
import UnusedDeps.Proofs.Names.Members
import UnusedDeps.Proofs.Spool.Origin

/-!
# Units and the packages they belong to

A build names the packages of its graph by their manifest directories, writes the
index to the spool directory, and every wrapper reads it back. However the
variables of a unit spell the directory of a package, the wrapper finds the very
identity under which the package stands in the graph and in the tables of names.
Units of other directories are never taken for local ones and leave nothing.
Main statement: `attributes_ofGraph`.
-/

namespace UnusedDeps

namespace Mapping

variable {κ ν : Type} [DecidableEq κ]

theorem get?_eq_some_iff {m : Mapping κ ν} (distinct : (m.map (·.1)).Nodup) {k : κ} {v : ν} :
    get? m k = some v ↔ (k, v) ∈ m := ⟨mem_of_get?, get?_of_mem distinct⟩

/-- What is found under a key does not depend on the order of distinct keys. -/
theorem get?_of_perm {m n : Mapping κ ν} (perm : m.Perm n) (distinct : (m.map (·.1)).Nodup)
    (k : κ) : get? m k = get? n k := by
  have distinct' : (n.map (·.1)).Nodup := (perm.map _).nodup_iff.1 distinct
  refine Option.ext fun v => ?_
  rw [get?_eq_some_iff distinct, get?_eq_some_iff distinct', perm.mem_iff]

end Mapping

/-- Whether the directory that variables name stands in no entry of an index. -/
def Environment.IsElsewhere [Whereabouts] (env : Environment) (index : PackagesIndex) : Prop :=
  ∀ s, Mapping.get? env "CARGO_MANIFEST_DIR" = some s →
    (Path.ofText s).fault? = none ∧ Mapping.get? index (Path.ofText s).resolve = none

/-! ### Units of other directories -/

namespace WrapperContext

theorem exists_package?_of_isElsewhere [Whereabouts] {c : WrapperContext} {env : Environment}
    (elsewhere : env.IsElsewhere c.packages) :
    ∃ package, c.package? env = .ok package ∧ ∀ id ∈ package, id.isLocal? = some false := by
  have unknown : c.indexed? env = .ok none := by
    unfold indexed?
    cases hs : Mapping.get? env "CARGO_MANIFEST_DIR" with
    | none => rfl
    | some s =>
      obtain ⟨sound, missing⟩ := elsewhere s hs
      simp only [sound, missing]
  refine ⟨named? env, ?_, fun id hid => isLocal?_of_named? hid⟩
  rw [package?, unknown]
  rfl

end WrapperContext

namespace Wrapper

variable {files : FileTree} {env : Environment} {name : String} {args : List Value}
  {compile : FileTree → CompilerCall → Logged ToolResult} {c : WrapperContext}

/-- Files change only where a record is left. -/
theorem files_of_spooled_eq_nil [Whereabouts] (h : (run files env name args compile).spooled = []) :
    (run files env name args compile).files = files := by
  revert h
  unfold run
  cases WrapperContext.ofEnvironment files env with
  | error f => exact fun _ => rfl
  | ok context =>
    dsimp only
    cases (plan context args env).result with
    | error f => exact fun _ => rfl
    | ok p =>
      dsimp only
      cases hs : spoolAll files context name p with
      | error f => exact fun _ => rfl
      | ok after =>
        intro h
        have left : p.records = [] := h
        unfold spoolAll at hs
        rw [left] at hs
        cases context <;> exact (Except.ok.inj hs).symm

/-- A unit of a directory that is not in the index leaves nothing. -/
theorem spooled_of_isElsewhere [Whereabouts]
    (loaded : WrapperContext.ofEnvironment files env = .ok (some c))
    (elsewhere : env.IsElsewhere c.packages) :
    (run files env name args compile).spooled = [] := by
  refine List.eq_nil_iff_forall_not_mem.2 fun r hr => ?_
  obtain ⟨c', u, loaded', announces, kept, -⟩ := of_mem_spooled hr
  cases loaded.symm.trans loaded'
  obtain ⟨package, hpackage, foreign⟩ :=
    WrapperContext.exists_package?_of_isElsewhere elsewhere
  cases hpackage.symm.trans announces.package
  obtain ⟨b, hb, place⟩ := announces.place
  cases hb.symm.trans (foreign _ rfl)
  -- A record is kept of a local unit only.
  rw [CompileUnit.kept?, place] at kept
  cases kept

end Wrapper

/-! ### The identities of the tables -/

/-- Every table of names is that of a package of the graph. -/
theorem NameTables.exists_of_ofGraph {g : Graph} {names : NameTables}
    (h : NameTables.ofGraph g = .ok names) {n : DependencyNames} (hn : n ∈ names) :
    ∃ p ∈ g.packages, n.package = p.id := by
  obtain ⟨ms, -, h⟩ := bind_eq_ok.1 h
  obtain ⟨ps, hps, h⟩ := bind_eq_ok.1 h
  obtain ⟨p, hp, hnames⟩ := exists_left_of_forall₂ (mapM_eq_ok.1 h) hn
  obtain ⟨m, -, hpackage⟩ := exists_left_of_forall₂ (mapM_eq_ok.1 hps) hp
  exact ⟨p, (Graph.of_package hpackage).1, (DependencyNames.describe_ofGraph hnames).1⟩

/-! ### The index -/

/-- Whether an index that comes back attributes units to the packages of a graph. -/
structure Graph.IsAttributedBy [Whereabouts] (g : Graph) (index back : PackagesIndex) : Prop where
  read : PackagesIndex.ofText index.toText = .ok back
  same : ∀ directory, Mapping.get? back directory = Mapping.get? index directory
  filed : ∀ (files : FileTree) dir held, files.Holds dir held →
    FileTree.TakesFile dir Spool.indexName → Spool.indexName ∉ held.map (·.1) →
    ∃ after, files.write (dir.child Spool.indexName) (Text.utf8 index.toText).toByteArray =
      .ok after ∧ PackagesIndex.read after (dir.child Spool.indexName) = .ok back
  found : ∀ p ∈ g.packages, ∀ c env s, c.packages = back →
    Mapping.get? env "CARGO_MANIFEST_DIR" = some s → p.manifestPath.parent.IsNamedBy s →
    WrapperContext.package? c env = .ok (some p.id)
  keyed : ∀ names, NameTables.ofGraph g = .ok names → ∀ p ∈ g.packages, ∀ n,
    names.get? p.id = some n → n.package = p.id
  elsewhere : ∀ c env, c.packages = back → env.IsElsewhere index →
    ∃ package, WrapperContext.package? c env = .ok package ∧
      ∀ id ∈ package, id.isLocal? = some false
  unrecorded : ∀ c files env name args compile,
    WrapperContext.ofEnvironment files env = .ok (some c) → c.packages = back →
    env.IsElsewhere index →
    (Wrapper.run files env name args compile).spooled = [] ∧
      (Wrapper.run files env name args compile).files = files

section

variable [Whereabouts] {g : Graph} {index : PackagesIndex} (indexable : g.IsIndexable)
  (perm : index.Perm (g.packages.map PackagesIndex.entry))

include indexable perm

theorem Graph.exists_back : ∃ back, PackagesIndex.ofText index.toText = .ok back ∧
    ∀ directory, Mapping.get? back directory = Mapping.get? index directory := by
  have faithful := PackagesIndex.isFaithful_of_perm indexable perm
  have distinct := PackagesIndex.nodup_of_perm indexable perm
  have sorted : index.sorted.Perm index := List.mergeSort_perm index _
  have distinct' : (index.sorted.map (·.1)).Nodup := (sorted.map _).nodup_iff.2 distinct
  refine ⟨_, PackagesIndex.ofText_toText faithful, fun directory => ?_⟩
  rw [Mapping.ofPairs_of_nodup distinct']
  exact Mapping.get?_of_perm sorted distinct' directory

theorem Graph.get?_index {p : PackageInfo} (hp : p ∈ g.packages) :
    Mapping.get? index p.manifestPath.parent.resolve = some p.id :=
  Mapping.get?_of_mem (PackagesIndex.nodup_of_perm indexable perm)
    (perm.mem_iff.2 (List.mem_map_of_mem hp))

end

/-- Every package of a graph is found by whatever names its manifest directory, and units of other
directories are never recorded. The graph of a document that was read from JSON is indexable as soon
as its packages have manifest directories with different names (`isIndexable_of_document`). -/
theorem Graph.attributes_ofGraph [Whereabouts] {g : Graph} (indexable : g.IsIndexable) :
    ∃ index back, PackagesIndex.ofGraph g = .ok index ∧ g.IsAttributedBy index back := by
  obtain ⟨index, hindex, perm⟩ := PackagesIndex.exists_ofGraph indexable
  obtain ⟨back, read, same⟩ := exists_back indexable perm
  refine ⟨index, back, hindex, ?_⟩
  exact
  { read := read
    same := same
    filed := by
      intro files dir held holds takes fresh
      have shown := PackagesIndex.isShown_toText (PackagesIndex.isFaithful_of_perm indexable perm)
      obtain ⟨after, written, holds'⟩ := holds.write takes fresh shown
      refine ⟨after, written, ?_⟩
      have isFile := holds'.isFile List.mem_cons_self
      have text := holds'.read List.mem_cons_self
      rw [PackagesIndex.read, isFile, text]
      exact read
    found := by
      rintro p hp c env s rfl told named
      have indexed := (same p.manifestPath.parent.resolve).trans (get?_index indexable perm hp)
      exact WrapperContext.package?_eq indexed told named
    keyed := by
      intro names hnames p hp n hn
      unfold NameTables.get? at hn
      obtain ⟨q, hq, heq⟩ := NameTables.exists_of_ofGraph hnames (List.mem_of_find?_eq_some hn)
      have ids : n.package.same p.id = true := by simpa using List.find?_some hn
      have textual : n.package.IsTextual := heq ▸ (indexable.ids q hq).isTextual
      exact (textual.same_iff (indexable.ids p hp).isTextual).1 ids
    elsewhere := by
      rintro c env rfl elsewhere
      refine WrapperContext.exists_package?_of_isElsewhere fun s hs => ?_
      exact ⟨(elsewhere s hs).1, (same _).trans (elsewhere s hs).2⟩
    unrecorded := by
      rintro c files env name args compile loaded rfl elsewhere
      have nothing : (Wrapper.run files env name args compile).spooled = [] :=
        Wrapper.spooled_of_isElsewhere loaded fun s hs =>
          ⟨(elsewhere s hs).1, (same _).trans (elsewhere s hs).2⟩
      exact ⟨nothing, Wrapper.files_of_spooled_eq_nil nothing⟩ }

/-- A member and a package from a registry. -/
theorem Graph.attributes_ofGraph_app : ∃ index back,
    PackagesIndex.ofGraph BuildSetup.appGraph = .ok index ∧
      BuildSetup.appGraph.IsAttributedBy index back :=
  attributes_ofGraph BuildSetup.isIndexable_appGraph

end UnusedDeps
