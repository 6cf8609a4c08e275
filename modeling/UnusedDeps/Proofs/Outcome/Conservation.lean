import UnusedDeps.Proofs.Order
import UnusedDeps.Proofs.Outcome.Entries

/-!
# Nothing declared is lost

Every declared dependency ends up in exactly one of three classes: it was seen
in use, its name was logged as ignored, or it is listed. What was logged and
what is listed comes out in strictly increasing order. Main statement:
`conserves_aggregate`, for all tables whose names are texts, in any order, and
whatever was seen in use.
-/

namespace UnusedDeps

/-! ### Names that are texts -/

/-- Whether the package of the tables and the names in them are texts that keep code points. -/
structure DependencyNames.IsCoded (n : DependencyNames) : Prop where
  package : n.package.IsCoded
  declared : ∀ k, ∀ v ∈ (n.table k).declared, v.IsCoded

/-- Whether a name comes before another. -/
def Value.Before (v w : Value) : Prop := Precedes (fun v => keysOf? [v]) v w

theorem Value.IsCoded.hasCodedKeys {v : Value} (h : v.IsCoded) :
    HasCodedKeys (fun v => keysOf? [v]) v := by
  obtain ⟨k, hk, hcoded⟩ := h.key?
  exact ⟨[k], by simp [keysOf?, hk], by simpa using hcoded⟩

theorem DependencyNames.IsCoded.isTextual {n : DependencyNames} (h : n.IsCoded) :
    n.IsTextual := by
  have texts {v : Value} (hv : v.IsCoded) : v.IsText := hv.imp fun _ hs => hs.1
  exact ⟨⟨texts h.package.name, texts h.package.version, texts h.package.source⟩,
    fun k v hv => texts (h.declared k v hv)⟩

theorem keysOf?_ne {v w : Value} (hv : v.IsCoded) (h : v.sameKey w = false) :
    keysOf? [v] ≠ keysOf? [w] := by
  intro heq
  obtain ⟨k, hk, -⟩ := hv.key?
  have hw : w.key? = some k := by
    cases hw : w.key? with
    | none => simp [keysOf?, hk, hw] at heq
    | some l => simpa [keysOf?, hk, hw, eq_comm] using heq
  rw [Value.sameKey_iff.2 ⟨k, hk, hw⟩] at h
  cases h

/-! ### Declared dependencies -/

/-- The place of a kind in the order of reports. -/
def DependencyKind.place : DependencyKind → Nat
  | .normal => 0
  | .development => 1
  | .build => 2

/-- A declared dependency of a package. -/
structure Declared where
  package : PackageId
  kind : DependencyKind
  name : Value
  deriving DecidableEq

namespace Declared

/-- The line that says that a dependency is ignored. -/
def line (d : Declared) : LogLine := Outcome.ignoredLine d.kind d.name

/-- Whether a dependency comes before another, by package, kind and name. -/
def Before (d e : Declared) : Prop :=
  d.package.Before e.package ∨ d.package = e.package ∧
    (d.kind.place < e.kind.place ∨ d.kind = e.kind ∧ d.name.Before e.name)

theorem not_before_self (d : Declared) : ¬d.Before d := by
  rintro (h | ⟨-, h | ⟨-, h⟩⟩)
  · exact not_precedes_self _ h
  · exact Nat.lt_irrefl _ h
  · exact not_precedes_self _ h

/-- The names of each kind as dependencies of a package. -/
def ofKinds (p : PackageId) (names : DependencyKind → List Value) : List Declared :=
  DependencyKind.all.flatMap fun k => (names k).map fun v => ⟨p, k, v⟩

theorem mem_ofKinds {p : PackageId} {names : DependencyKind → List Value} {d : Declared} :
    d ∈ ofKinds p names ↔ d.package = p ∧ d.name ∈ names d.kind := by
  obtain ⟨q, k, v⟩ := d
  simp only [ofKinds, List.mem_flatMap, List.mem_map, DependencyKind.mem_all, true_and, mk.injEq]
  constructor
  · rintro ⟨k', v', hv, rfl, rfl, rfl⟩
    exact ⟨rfl, hv⟩
  · rintro ⟨rfl, hv⟩
    exact ⟨k, v, hv, rfl, rfl, rfl⟩

theorem map_line_ofKinds (p : PackageId) (names : DependencyKind → List Value) :
    (ofKinds p names).map line = Outcome.linesOn names := by
  rw [ofKinds, Outcome.linesOn, List.map_flatMap]
  simp only [List.map_map]
  rfl

theorem pairwise_ofKinds {p : PackageId} {names : DependencyKind → List Value}
    (h : ∀ k, (names k).Pairwise Value.Before) : (ofKinds p names).Pairwise Before := by
  rw [ofKinds, List.pairwise_flatMap]
  refine ⟨fun k _ => ?_, ?_⟩
  · rw [List.pairwise_map]
    exact (h k).imp fun hvw => .inr ⟨rfl, .inr ⟨rfl, hvw⟩⟩
  · have places : DependencyKind.all.Pairwise fun k l => k.place < l.place := by decide
    refine places.imp fun hkl d hd e he => ?_
    obtain ⟨v, -, rfl⟩ := List.mem_map.1 hd
    obtain ⟨w, -, rfl⟩ := List.mem_map.1 he
    exact .inr ⟨rfl, .inl hkl⟩

theorem filter_ofKinds (p q : PackageId) (names : DependencyKind → List Value) :
    (ofKinds q names).filter (fun d => d.package = p) = if q = p then ofKinds q names else [] := by
  split
  · rename_i h
    rw [List.filter_eq_self]
    intro d hd
    simpa [h] using (mem_ofKinds.1 hd).1
  · rename_i h
    rw [List.filter_eq_nil_iff]
    intro d hd
    simpa [(mem_ofKinds.1 hd).1] using h

/-- The names of each kind as dependencies of several packages. -/
def ofTables (ns : NameTables) (names : DependencyNames → DependencyKind → List Value) :
    List Declared :=
  ns.flatMap fun n => ofKinds n.package (names n)

variable {ns : NameTables} {names : DependencyNames → DependencyKind → List Value}

theorem mem_ofTables {d : Declared} :
    d ∈ ofTables ns names ↔ ∃ n ∈ ns, d.package = n.package ∧ d.name ∈ names n d.kind := by
  simp only [ofTables, List.mem_flatMap, mem_ofKinds]

theorem pairwise_ofTables (packages : ns.Pairwise fun n n' => n.package.Before n'.package)
    (h : ∀ n ∈ ns, ∀ k, (names n k).Pairwise Value.Before) :
    (ofTables ns names).Pairwise Before := by
  rw [ofTables, List.pairwise_flatMap]
  refine ⟨fun n hn => pairwise_ofKinds (h n hn), packages.imp ?_⟩
  intro n n' hbefore d hd d' hd'
  refine .inl ?_
  rw [(mem_ofKinds.1 hd).1, (mem_ofKinds.1 hd').1]
  exact hbefore

/-- Of the dependencies of distinct packages, those of one of them. -/
theorem filter_ofTables (apart : ns.Pairwise fun n n' => n.package ≠ n'.package)
    {n : DependencyNames} (hn : n ∈ ns) :
    (ofTables ns names).filter (fun d => d.package = n.package) = ofKinds n.package (names n) := by
  induction ns with
  | nil => cases hn
  | cons m ns ih =>
    obtain ⟨fresh, apart⟩ := List.pairwise_cons.1 apart
    rw [ofTables, List.flatMap_cons, List.filter_append, filter_ofKinds]
    rcases List.mem_cons.1 hn with rfl | hn
    · have others : (ofTables ns names).filter (fun d => d.package = n.package) = [] := by
        rw [List.filter_eq_nil_iff]
        intro d hd
        obtain ⟨m, hm, hp, -⟩ := mem_ofTables.1 hd
        simpa [hp] using (fresh m hm).symm
      rw [if_pos rfl, ← ofTables, others, List.append_nil]
    · rw [if_neg (fresh n hn), List.nil_append]
      exact ih apart hn

end Declared

/-! ### What can be put in order -/

namespace Outcome

theorem pairwise_sortedNames {vs ws : List Value} (coded : ∀ v ∈ vs, v.IsCoded)
    (apart : vs.Pairwise fun v w => v.sameKey w = false) (h : sortedNames vs = .ok ws) :
    ws.Pairwise Value.Before := by
  have distinct : vs.Pairwise fun v w => keysOf? [v] ≠ keysOf? [w] :=
    apart.imp_of_mem fun hv _ hvw => keysOf?_ne (coded _ hv) hvw
  exact pairwise_sortByKeys? (fun v hv => (coded v hv).hasCodedKeys) distinct
    (orWrongType_eq_ok.1 h)

variable {g : Graph} {names : NameTables} {used : UsedDependencies} {options : RunOptions}
  {load : IgnoreLoader}

theorem pairwise_of_sublist {n : DependencyNames} {k : DependencyKind} {vs ws : List Value}
    (coded : n.IsCoded) (sub : vs.Sublist (n.table k).declared) (h : sortedNames vs = .ok ws) :
    ws.Pairwise Value.Before :=
  pairwise_sortedNames (fun v hv => coded.declared k v (sub.subset hv))
    ((pairwise_distinctKeys _).sublist sub) h

/-! ### The three classes -/

/-- Whether one of three statements holds and the others do not. -/
def ExactlyOne (a b c : Prop) : Prop := a ∧ ¬b ∧ ¬c ∨ ¬a ∧ b ∧ ¬c ∨ ¬a ∧ ¬b ∧ c

theorem exactlyOne_of {a b c i : Prop} (hb : b ↔ ¬a ∧ i) (hc : c ↔ ¬a ∧ ¬i) :
    ExactlyOne a b c := by
  unfold ExactlyOne
  rw [hb, hc]
  by_cases ha : a <;> by_cases hi : i <;> simp [ha, hi]

/-- What becomes of declared dependencies: `logged` are those that were logged as ignored. -/
structure Conserves (g : Graph) (names : NameTables) (used : UsedDependencies)
    (load : IgnoreLoader) (o : Outcome) (logged : List Declared) (lines : List LogLine) : Prop where
  /-- Every declared dependency is in exactly one of the classes. -/
  classified : ∀ n ∈ names, ∀ k, ∀ v ∈ (n.table k).declared,
    ExactlyOne (used.contains k ⟨n.package, v⟩ = true) (⟨n.package, k, v⟩ ∈ logged)
      (v ∈ o.reported n.package k)
  /-- What is logged is declared, not seen in use and ignored. -/
  logged_iff : ∀ d, d ∈ logged ↔ ∃ n ∈ names, d.package = n.package ∧
    d.name ∈ (n.table d.kind).declared ∧ used.contains d.kind ⟨n.package, d.name⟩ = false ∧
    g.Ignores load n.package d.kind d.name
  /-- What is listed is declared, not seen in use and not ignored. -/
  listed_iff : ∀ p k v, v ∈ o.reported p k ↔ ∃ n ∈ names, n.package.same p = true ∧
    v ∈ (n.table k).declared ∧ used.contains k ⟨n.package, v⟩ = false ∧
    ¬g.Ignores load n.package k v
  /-- No package has two entries. -/
  distinct : o.unused.Pairwise fun e f => e.1.same f.1 = false
  /-- A package has an entry when one of its declared names was not seen in use. -/
  entry_iff : ∀ p, (∃ e ∈ o.unused, e.1 = p) ↔ ∃ n ∈ names, n.package = p ∧
    ∃ k, ∃ v ∈ (n.table k).declared, used.contains k ⟨n.package, v⟩ = false
  increasing : ∀ e ∈ o.unused, ∀ k, (e.2.names k).Pairwise Value.Before
  success : ∃ b, o.success = .bool b ∧ (b = true ↔ ∀ e ∈ o.unused, ∀ k, e.2.names k = [])
  note : o.note = .null ↔ o.success = .bool true
  once : logged.Nodup
  order : logged.Pairwise Declared.Before
  /-- The lines are those of the ignore tables and one for each logged dependency. -/
  lines : ∃ sorted : NameTables, sorted.Perm names ∧
    sorted.Pairwise (fun n n' => n.package.Before n'.package) ∧
    lines = sorted.flatMap fun n => tableLines g load n ++
      (logged.filter fun d => d.package = n.package).map Declared.line

theorem note_ofEntries (names : NameTables) (unused : UnusedEntries) :
    (ofEntries options names unused).note = .null ↔
      (ofEntries options names unused).success = .bool true := by
  unfold ofEntries
  cases unused.all fun e => e.2.isEmpty <;> simp

theorem eq_of_same (apart : names.Pairwise fun n n' => n.package.same n'.package = false)
    {n n' : DependencyNames} (hn : n ∈ names) (hn' : n' ∈ names)
    (hs : n'.package.same n.package = true) : n' = n := by
  have self := PackageId.same_trans (PackageId.same_symm hs) hs
  have first := PackageId.find?_same_eq apart hn' hs
  have second := PackageId.find?_same_eq apart hn self
  exact Option.some.inj (first.symm.trans second)

/-- The classes exclude each other because the tables of a package are unique. -/
theorem exactlyOne_classes (apart : names.Pairwise fun n n' => n.package.same n'.package = false)
    {o : Outcome} {logged : List Declared}
    (logged_iff : ∀ d, d ∈ logged ↔ ∃ n ∈ names, d.package = n.package ∧
      d.name ∈ (n.table d.kind).declared ∧ used.contains d.kind ⟨n.package, d.name⟩ = false ∧
      g.Ignores load n.package d.kind d.name)
    (listed_iff : ∀ p k v, v ∈ o.reported p k ↔ ∃ n ∈ names, n.package.same p = true ∧
      v ∈ (n.table k).declared ∧ used.contains k ⟨n.package, v⟩ = false ∧
      ¬g.Ignores load n.package k v)
    {n : DependencyNames} (hn : n ∈ names) (self : n.package.same n.package = true)
    {k : DependencyKind} {v : Value} (hv : v ∈ (n.table k).declared) :
    ExactlyOne (used.contains k ⟨n.package, v⟩ = true) (⟨n.package, k, v⟩ ∈ logged)
      (v ∈ o.reported n.package k) := by
  have logged_v : ⟨n.package, k, v⟩ ∈ logged ↔
      ¬used.contains k ⟨n.package, v⟩ = true ∧ g.Ignores load n.package k v := by
    rw [logged_iff, Bool.not_eq_true]
    constructor
    · rintro ⟨n', -, hp, -, hclass⟩
      have hp : n.package = n'.package := hp
      rw [hp]
      exact hclass
    · intro hclass
      exact ⟨n, hn, rfl, hv, hclass⟩
  have listed_v : v ∈ o.reported n.package k ↔
      ¬used.contains k ⟨n.package, v⟩ = true ∧ ¬g.Ignores load n.package k v := by
    rw [listed_iff, Bool.not_eq_true]
    constructor
    · rintro ⟨n', hn', hp, -, hclass⟩
      have heq : n' = n := eq_of_same apart hn hn' hp
      rw [heq] at hclass
      exact hclass
    · intro hclass
      exact ⟨n, hn, self, hv, hclass⟩
  exact exactlyOne_of logged_v listed_v

namespace Settled

variable {sorted : NameTables} {entries : List (Option (PackageId × UnusedEntry))}

theorem exists_ignoring (hs : Settled g used load names sorted entries)
    (coded : ∀ n ∈ names, n.IsCoded) {n : DependencyNames} (hn : n ∈ sorted) :
    ∃ ignoring : DependencyKind → List Value, (∀ k, (ignoring k).Pairwise Value.Before) ∧
      (∀ k v, v ∈ ignoring k ↔ v ∈ (n.table k).declared ∧
        used.contains k ⟨n.package, v⟩ = false ∧ g.Ignores load n.package k v) ∧
      (packageEntry g used load n).lines = tableLines g load n ++ linesOn ignoring := by
  obtain ⟨entry, -, t, ht⟩ := exists_right_of_forall₂ hs.each hn
  obtain ⟨ignoring, hi, hlines⟩ := ht.lines
  refine ⟨ignoring, fun k => ?_, fun k v => ?_, hlines⟩
  · exact pairwise_of_sublist (coded n ((hs.mem_sorted_iff n).1 hn)) (ignored_sublist n used t k)
      (hi k)
  · rw [mem_of_sortedNames (hi k), ht.mem_ignored_iff]

theorem pairwise_before (hs : Settled g used load names sorted entries)
    (apart : names.Pairwise fun n n' => n.package.same n'.package = false)
    (coded : ∀ n ∈ names, n.IsCoded) :
    sorted.Pairwise fun n n' => n.package.Before n'.package := by
  have keyed : ∀ n ∈ names, HasCodedKeys (fun n => n.package.keys?) n := fun n hn =>
    (coded n hn).package.hasCodedKeys
  have distinct : names.Pairwise fun n n' => n.package.keys? ≠ n'.package.keys? :=
    apart.imp_of_mem fun hn _ hnn' => keys?_ne (coded _ hn).package hnn'
  exact pairwise_sortByKeys? keyed distinct (orWrongType_eq_ok.1 hs.order)

theorem pairwise_entries (hs : Settled g used load names sorted entries)
    (apart : names.Pairwise fun n n' => n.package.same n'.package = false)
    (coded : ∀ n ∈ names, n.IsCoded) :
    (entries.filterMap id).Pairwise fun e f => e.1.Before f.1 := by
  rw [List.pairwise_filterMap]
  refine pairwise_of_forall₂ hs.each (hs.pairwise_before apart coded) ?_
  rintro n entry n' entry' ⟨t, ht⟩ ⟨t', ht'⟩ before e he f hf
  rw [(ht.names e he).1, (ht'.names f hf).1]
  exact before

theorem entry_iff (hs : Settled g used load names sorted entries) (p : PackageId) :
    (∃ e ∈ entries.filterMap id, e.1 = p) ↔ ∃ n ∈ names, n.package = p ∧
      ∃ k, ∃ v ∈ (n.table k).declared, used.contains k ⟨n.package, v⟩ = false := by
  constructor
  · rintro ⟨e, he, rfl⟩
    obtain ⟨n, hn, heq, t, ht⟩ := hs.of_mem he
    exact ⟨n, hn, heq.symm, ht.entry_iff.1 ⟨e, rfl⟩⟩
  · rintro ⟨n, hn, rfl, hunused⟩
    obtain ⟨entry, t, ht, hmem⟩ := hs.exists_settles hn
    obtain ⟨e, he⟩ := ht.entry_iff.2 hunused
    exact ⟨e, hmem e he, (ht.names e he).1⟩

end Settled

/-- Aggregating puts every declared dependency in exactly one class and loses none. -/
theorem conserves_aggregate (used : UsedDependencies) (options : RunOptions)
    (apart : names.Pairwise fun n n' => n.package.same n'.package = false)
    (coded : ∀ n ∈ names, n.IsCoded) (known : ∀ n ∈ names, g.Knows n.package)
    (loads : ∀ n ∈ names, ∀ p, g.package n.package = .ok p → ∃ t, (load p).result = .ok t) :
    ∃ o logged, (aggregate g names used options load).result = .ok o ∧
      Conserves g names used load o logged (aggregate g names used options load).lines := by
  have run : ∃ o, (aggregate g names used options load).result = .ok o :=
    aggregate_isOk (fun n hn => (coded n hn).isTextual) known loads
  obtain ⟨o, ho⟩ := run
  have listed_iff := mem_reported_of_aggregate ho apart
  obtain ⟨sorted, entries, hs, rfl, hlines⟩ := settled_of_aggregate ho
  have settles := fun n (hn : n ∈ sorted) => hs.exists_ignoring coded hn
  choose! ignoring increasing mem_ignoring lines using settles
  have packages := hs.pairwise_before apart coded
  have logged_iff (d : Declared) : d ∈ Declared.ofTables sorted ignoring ↔
      ∃ n ∈ names, d.package = n.package ∧ d.name ∈ (n.table d.kind).declared ∧
        used.contains d.kind ⟨n.package, d.name⟩ = false ∧
        g.Ignores load n.package d.kind d.name := by
    rw [Declared.mem_ofTables]
    refine exists_congr fun n => ?_
    rw [hs.mem_sorted_iff]
    refine and_congr_right fun hn => and_congr_right fun _ => ?_
    exact mem_ignoring n ((hs.mem_sorted_iff n).2 hn) _ _
  have order := Declared.pairwise_ofTables packages increasing
  have distinct : sorted.Pairwise fun n n' => n.package ≠ n'.package := by
    refine packages.imp ?_
    intro n n' hbefore heq
    rw [heq] at hbefore
    exact not_precedes_self _ hbefore
  refine ⟨_, Declared.ofTables sorted ignoring, ho, ?_, logged_iff, listed_iff, hs.distinct apart,
    hs.entry_iff, ?_, success_ofEntries options names _, note_ofEntries names _, ?_, order, sorted,
    ?_, packages, ?_⟩
  · intro n hn k v hv
    obtain ⟨ks, hks, -⟩ := (coded n hn).package.hasCodedKeys
    have self := PackageId.same_iff.2 ⟨ks, hks, hks⟩
    exact exactlyOne_classes apart logged_iff listed_iff hn self hv
  · intro e he k
    obtain ⟨n, hn, -, t, ht⟩ := hs.of_mem he
    exact pairwise_of_sublist (coded n hn) (listed_sublist n used t k) ((ht.names e rfl).2 k)
  · refine order.imp ?_
    rintro d _ hbefore rfl
    exact Declared.not_before_self d hbefore
  · exact sortByKeys?_perm (orWrongType_eq_ok.1 hs.order)
  · rw [hlines]
    refine List.flatMap_congr fun n hn => ?_
    rw [lines n hn, Declared.filter_ofTables distinct hn, Declared.map_line_ofKinds]

/-- The tables of a package that depends on two packages without a library. -/
def twoTools : DependencyNames :=
  ⟨⟨.text "app", .text "1.0.0", .text "registry"⟩, ⟨[], [], [.text "tool", .text "cc"]⟩, .empty,
    .empty⟩

theorem isCoded_twoTools : twoTools.IsCoded := by
  refine ⟨⟨Value.isCoded_of_plain (by decide), Value.isCoded_of_plain (by decide),
    Value.isCoded_of_plain (by decide)⟩, ?_⟩
  intro k v hv
  have listed : v = .text "tool" ∨ v = .text "cc" := by
    cases k
    · have hdeclared : twoTools.normal.declared = [.text "tool", .text "cc"] := by decide
      simpa [DependencyNames.table, hdeclared] using hv
    · cases hv
    · cases hv
  rcases listed with rfl | rfl
  · exact Value.isCoded_of_plain (by decide)
  · exact Value.isCoded_of_plain (by decide)

theorem conserves_aggregate_twoTools : ∃ g used load o logged,
    (aggregate g [twoTools] used {} load).result = .ok o ∧
      Conserves g [twoTools] used load o logged (aggregate g [twoTools] used {} load).lines := by
  let app : PackageInfo := ⟨twoTools.package, Path.ofText "/Cargo.toml", none, .empty⟩
  let load : IgnoreLoader := fun _ => .answer (some ⟨["tool"], [], []⟩)
  have known : ∀ n ∈ [twoTools], Graph.Knows ⟨[app], [], []⟩ n.package := by
    intro n hn
    cases List.mem_singleton.1 hn
    exact ⟨app, List.mem_singleton.2 rfl, rfl⟩
  have coded : ∀ n ∈ [twoTools], n.IsCoded := by
    intro n hn
    cases List.mem_singleton.1 hn
    exact isCoded_twoTools
  have loads : ∀ n ∈ [twoTools], ∀ p, Graph.package ⟨[app], [], []⟩ n.package = .ok p →
      ∃ t, (load p).result = .ok t := fun _ _ _ _ => ⟨_, rfl⟩
  obtain ⟨o, logged, ho, conserves⟩ :=
    conserves_aggregate .empty {} (List.pairwise_singleton _ _) coded known loads
  exact ⟨_, .empty, load, o, logged, ho, conserves⟩

end Outcome

end UnusedDeps
