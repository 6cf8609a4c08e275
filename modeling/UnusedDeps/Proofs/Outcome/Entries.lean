import UnusedDeps.Outcome.Aggregate
import UnusedDeps.Proofs.Graph.Construction

/-!
# Entries of an outcome

What an outcome lists for the packages that it was made of. A package with a
declared name that was not seen in use has one entry, and the entry lists those
of these names that the ignore table does not hold. The lines of a run are those
of the ignore tables and of the ignored names, package by package.
-/

namespace UnusedDeps

/-- Whether the ignore table of a package holds a name. -/
def Graph.Ignores (g : Graph) (load : IgnoreLoader) (id : PackageId) (k : DependencyKind)
    (v : Value) : Prop :=
  ∃ p t, g.package id = .ok p ∧ (load p).result = .ok t ∧ Outcome.isIgnored t k v = true

/-- Whether the package of the tables and the names in them are texts. -/
structure DependencyNames.IsTextual (n : DependencyNames) : Prop where
  package : n.package.IsTextual
  declared : ∀ k, ∀ v ∈ (n.table k).declared, v.IsText

namespace Outcome

/-- The names that an outcome lists for a package and a kind. -/
def reported (o : Outcome) (p : PackageId) (k : DependencyKind) : List Value :=
  ((o.unused.find? (·.1.same p)).map (·.2.names k)).getD []

/-! ### One package -/

theorem mem_of_sortedNames {vs ws : List Value} (h : sortedNames vs = .ok ws) (v : Value) :
    v ∈ ws ↔ v ∈ vs :=
  mem_sortByKeys? (orWrongType_eq_ok.1 h) v

theorem sortedNames_nil : sortedNames [] = .ok [] := by
  simp [sortedNames, sortValues?, sortByKeys?, withKeys?, Key.comparable, orWrongType]

/-- The lines on the ignored names of each kind. -/
def linesOn (ignoring : DependencyKind → List Value) : List LogLine :=
  DependencyKind.all.flatMap fun k => (ignoring k).map (ignoredLine k)

theorem ignoredLines_eq_ok {id : PackageId} {n : DependencyNames} {used : UsedDependencies}
    {t : Option IgnoreTable} {lines : List LogLine} :
    ignoredLines id n used t = .ok lines ↔ ∃ ignoring : DependencyKind → List Value,
      (∀ k, sortedNames (ignored id n used t k) = .ok (ignoring k)) ∧ lines = linesOn ignoring := by
  simp only [ignoredLines, linesOn, DependencyKind.all, List.mapM_cons, List.mapM_nil, bind_eq_ok,
    pure_eq_ok]
  constructor
  · rintro ⟨_, ⟨_, ⟨a, ha, rfl⟩, _, ⟨_, ⟨b, hb, rfl⟩, _, ⟨_, ⟨c, hc, rfl⟩, _, rfl, rfl⟩, rfl⟩, rfl⟩,
      rfl⟩
    refine ⟨UnusedEntry.names ⟨.null, a, b, c⟩, fun k => ?_, rfl⟩
    cases k with
    | normal => exact ha
    | development => exact hb
    | build => exact hc
  · rintro ⟨ignoring, h, rfl⟩
    exact ⟨_, ⟨_, ⟨_, h .normal, rfl⟩, _, ⟨_, ⟨_, h .development, rfl⟩, _,
      ⟨_, ⟨_, h .build, rfl⟩, _, rfl, rfl⟩, rfl⟩, rfl⟩, rfl⟩

theorem all_unmarked_isEmpty {id : PackageId} {n : DependencyNames} {used : UsedDependencies} :
    (DependencyKind.all.all fun k => (unmarked id n used k).isEmpty) = true ↔
      ∀ k, unmarked id n used k = [] := by
  simp [DependencyKind.mem_all]

theorem findings_eq_ok {p : PackageInfo} {id : PackageId} {n : DependencyNames}
    {used : UsedDependencies} {t : Option IgnoreTable} {entry : Option (PackageId × UnusedEntry)}
    (h : findings p id n used t = .ok entry) :
    (∀ k, unmarked id n used k = []) ∧ entry = none ∨
    (∃ k, unmarked id n used k ≠ []) ∧ ∃ e, entry = some (id, e) ∧
      ∀ k, sortedNames (listed id n used t k) = .ok (e.names k) := by
  unfold findings at h
  split at h
  · rename_i none
    exact .inl ⟨all_unmarked_isEmpty.1 none, (pure_eq_ok.1 h).symm⟩
  · rename_i some
    rw [all_unmarked_isEmpty, not_forall] at some
    obtain ⟨normal, hnormal, h⟩ := bind_eq_ok.1 h
    obtain ⟨development, hdevelopment, h⟩ := bind_eq_ok.1 h
    obtain ⟨build, hbuild, h⟩ := bind_eq_ok.1 h
    refine .inr ⟨some, _, (pure_eq_ok.1 h).symm, fun k => ?_⟩
    cases k with
    | normal => exact hnormal
    | development => exact hdevelopment
    | build => exact hbuild

/-- The lines that the ignore table of a package is read with. -/
def tableLines (g : Graph) (load : IgnoreLoader) (n : DependencyNames) : List LogLine :=
  if n.declaresAny then
    match g.package n.package with
    | .ok p => (load p).lines
    | .error _ => []
  else []

/-- How the entry of a package comes about, with the ignore table that was read for it. -/
structure Settles (g : Graph) (used : UsedDependencies) (load : IgnoreLoader) (n : DependencyNames)
    (t : Option IgnoreTable) (entry : Option (PackageId × UnusedEntry)) : Prop where
  loaded : n.declaresAny = true → ∃ p, g.package n.package = .ok p ∧ (load p).result = .ok t
  absent : entry = none ↔ ∀ k, unmarked n.package n used k = []
  names : ∀ e, entry = some e → e.1 = n.package ∧
    ∀ k, sortedNames (listed n.package n used t k) = .ok (e.2.names k)
  lines : ∃ ignoring : DependencyKind → List Value,
    (∀ k, sortedNames (ignored n.package n used t k) = .ok (ignoring k)) ∧
    (packageEntry g used load n).lines = tableLines g load n ++ linesOn ignoring

theorem declaresAny_eq_false {n : DependencyNames} :
    n.declaresAny = false ↔ ∀ k, (n.table k).declared = [] := by
  simp [DependencyNames.declaresAny, DependencyKind.mem_all]

theorem settles_of_not_declaresAny {g : Graph} {used : UsedDependencies} {load : IgnoreLoader}
    {n : DependencyNames} (h : n.declaresAny = false) : Settles g used load n none none := by
  have unmarked (k : DependencyKind) : unmarked n.package n used k = [] := by
    rw [Outcome.unmarked, declaresAny_eq_false.1 h k, List.filter_nil]
  have ignored (k : DependencyKind) : ignored n.package n used none k = [] := by
    rw [Outcome.ignored, unmarked k, List.filter_nil]
  refine ⟨fun h' => ?_, by simp [unmarked], fun e he => ?_, fun _ => [], fun k => ?_, ?_⟩
  · rw [h] at h'
    cases h'
  · cases he
  · rw [ignored k, sortedNames_nil]
  · simp only [packageEntry, tableLines, h]
    rfl

theorem settles_of_packageEntry {g : Graph} {used : UsedDependencies} {load : IgnoreLoader}
    {n : DependencyNames} {entry : Option (PackageId × UnusedEntry)}
    (h : (packageEntry g used load n).result = .ok entry) :
    ∃ t, Settles g used load n t entry := by
  cases hany : n.declaresAny with
  | false =>
    simp only [packageEntry, hany] at h
    cases h
    exact ⟨none, settles_of_not_declaresAny hany⟩
  | true =>
    have run := h
    simp only [packageEntry, hany, if_true] at run
    obtain ⟨p, hp, run⟩ := Logged.result_bind_eq_ok.1 run
    obtain ⟨t, ht, run⟩ := Logged.result_bind_eq_ok.1 run
    obtain ⟨lines, hlines, run⟩ := Logged.result_bind_eq_ok.1 run
    obtain ⟨_, -, hfindings⟩ := Logged.result_bind_eq_ok.1 run
    obtain ⟨ignoring, hi, rfl⟩ := ignoredLines_eq_ok.1 hlines
    refine ⟨t, fun _ => ⟨p, hp, ht⟩, ?_, fun e he => ?_, ignoring, hi, ?_⟩
    · rcases findings_eq_ok hfindings with ⟨none, rfl⟩ | ⟨⟨k, hk⟩, e, rfl, -⟩
      · simp [none]
      · simpa using ⟨k, hk⟩
    · rcases findings_eq_ok hfindings with ⟨-, rfl⟩ | ⟨-, e', rfl, hnames⟩
      · cases he
      · cases he
        exact ⟨rfl, hnames⟩
    · have found : g.package n.package = .ok p := hp
      have table : tableLines g load n = (load p).lines := by
        simp only [tableLines, hany, if_true, found]
      rw [table]
      simp only [packageEntry, hany, if_true]
      rw [Logged.lines_bind hp, Logged.lines_bind ht, Logged.lines_bind hlines,
        Logged.lines_bind rfl]
      simp [Logged.logAll]

theorem declaresAny_of_mem {n : DependencyNames} {k : DependencyKind} {v : Value}
    (h : v ∈ (n.table k).declared) : n.declaresAny = true := by
  by_contra none
  rw [Bool.not_eq_true, declaresAny_eq_false] at none
  rw [none k] at h
  exact List.not_mem_nil h

namespace Settles

variable {g : Graph} {used : UsedDependencies} {load : IgnoreLoader} {n : DependencyNames}
  {t : Option IgnoreTable} {entry : Option (PackageId × UnusedEntry)}

theorem ignores_iff (h : Settles g used load n t entry) {k : DependencyKind} {v : Value}
    (hv : v ∈ (n.table k).declared) :
    g.Ignores load n.package k v ↔ isIgnored t k v = true := by
  obtain ⟨p, hp, ht⟩ := h.loaded (declaresAny_of_mem hv)
  constructor
  · rintro ⟨p', t', hp', ht', ignored⟩
    cases hp.symm.trans hp'
    cases ht.symm.trans ht'
    exact ignored
  · intro ignored
    exact ⟨p, t, hp, ht, ignored⟩

theorem mem_listed_iff (h : Settles g used load n t entry) (k : DependencyKind) (v : Value) :
    v ∈ listed n.package n used t k ↔ v ∈ (n.table k).declared ∧
      used.contains k ⟨n.package, v⟩ = false ∧ ¬g.Ignores load n.package k v := by
  rw [mem_listed, mem_unmarked, and_assoc]
  refine and_congr_right fun hv => ?_
  rw [h.ignores_iff hv, Bool.not_eq_true]

theorem mem_ignored_iff (h : Settles g used load n t entry) (k : DependencyKind) (v : Value) :
    v ∈ ignored n.package n used t k ↔ v ∈ (n.table k).declared ∧
      used.contains k ⟨n.package, v⟩ = false ∧ g.Ignores load n.package k v := by
  rw [mem_ignored, mem_unmarked, and_assoc]
  refine and_congr_right fun hv => ?_
  rw [h.ignores_iff hv]

theorem mem_names (h : Settles g used load n t entry) {e : PackageId × UnusedEntry}
    (he : entry = some e) (k : DependencyKind) (v : Value) :
    v ∈ e.2.names k ↔ v ∈ (n.table k).declared ∧
      used.contains k ⟨n.package, v⟩ = false ∧ ¬g.Ignores load n.package k v := by
  rw [mem_of_sortedNames ((h.names e he).2 k), h.mem_listed_iff]

/-- Only a package without an entry has all of its declared names in use. -/
theorem entry_iff (h : Settles g used load n t entry) :
    (∃ e, entry = some e) ↔ ∃ k, ∃ v ∈ (n.table k).declared,
      used.contains k ⟨n.package, v⟩ = false := by
  rw [← Option.isSome_iff_exists, ← Option.ne_none_iff_isSome, ne_eq, h.absent, not_forall]
  refine exists_congr fun k => ?_
  rw [List.eq_nil_iff_forall_not_mem, not_forall]
  simp only [not_not, mem_unmarked]

end Settles

/-! ### All packages -/

/-- How an outcome comes about: each of the tables, in the order of the packages, settles an
entry or none. -/
structure Settled (g : Graph) (used : UsedDependencies) (load : IgnoreLoader)
    (names sorted : NameTables) (entries : List (Option (PackageId × UnusedEntry))) : Prop where
  order : names.sorted = .ok sorted
  each : List.Forall₂ (fun n entry => ∃ t, Settles g used load n t entry) sorted entries

theorem settled_of_aggregate {g : Graph} {names : NameTables} {used : UsedDependencies}
    {options : RunOptions} {load : IgnoreLoader} {o : Outcome}
    (h : (aggregate g names used options load).result = .ok o) :
    ∃ sorted entries, Settled g used load names sorted entries ∧
      o = ofEntries options names (entries.filterMap id) ∧
      (aggregate g names used options load).lines =
        sorted.flatMap fun n => (packageEntry g used load n).lines := by
  have run := h
  obtain ⟨sorted, hsorted, run⟩ := Logged.result_bind_eq_ok.1 run
  obtain ⟨entries, hentries, run⟩ := Logged.result_bind_eq_ok.1 run
  refine ⟨sorted, entries, ⟨hsorted, ?_⟩, (Except.ok.inj run).symm, ?_⟩
  · exact (Logged.result_forEach_eq_ok.1 hentries).imp fun _ _ => settles_of_packageEntry
  · rw [aggregate, Logged.lines_bind hsorted, Logged.lines_bind hentries,
      Logged.lines_forEach hentries, Logged.lines_ofExcept, Logged.lines_pure]
    simp

namespace Settled

variable {g : Graph} {used : UsedDependencies} {load : IgnoreLoader} {names sorted : NameTables}
  {entries : List (Option (PackageId × UnusedEntry))}

theorem mem_sorted_iff (h : Settled g used load names sorted entries) (n : DependencyNames) :
    n ∈ sorted ↔ n ∈ names :=
  mem_sortByKeys? (orWrongType_eq_ok.1 h.order) n

theorem of_mem (h : Settled g used load names sorted entries) {e : PackageId × UnusedEntry}
    (he : e ∈ entries.filterMap id) :
    ∃ n ∈ names, e.1 = n.package ∧ ∃ t, Settles g used load n t (some e) := by
  obtain ⟨entry, hentry, rfl⟩ := List.mem_filterMap.1 he
  obtain ⟨n, hn, t, ht⟩ := exists_left_of_forall₂ h.each hentry
  exact ⟨n, (h.mem_sorted_iff n).1 hn, (ht.names e rfl).1, t, ht⟩

theorem exists_settles (h : Settled g used load names sorted entries) {n : DependencyNames}
    (hn : n ∈ names) :
    ∃ entry t, Settles g used load n t entry ∧ ∀ e, entry = some e → e ∈ entries.filterMap id := by
  obtain ⟨entry, hentry, t, ht⟩ := exists_right_of_forall₂ h.each ((h.mem_sorted_iff n).2 hn)
  exact ⟨entry, t, ht, fun e he => List.mem_filterMap.2 ⟨entry, hentry, he⟩⟩

theorem distinct (h : Settled g used load names sorted entries)
    (apart : names.Pairwise fun n n' => n.package.same n'.package = false) :
    (entries.filterMap id).Pairwise fun e f => e.1.same f.1 = false := by
  have perm := sortByKeys?_perm (orWrongType_eq_ok.1 h.order)
  have apart := (perm.pairwise_iff fun {n n'} hs =>
    (PackageId.same_comm n'.package n.package).trans hs).2 apart
  rw [List.pairwise_filterMap]
  refine pairwise_of_forall₂ h.each apart ?_
  rintro n entry n' entry' ⟨t, ht⟩ ⟨t', ht'⟩ hs e he f hf
  rw [(ht.names e he).1, (ht'.names f hf).1]
  exact hs

end Settled

/-! ### Looking names up -/

theorem isEmpty_iff {e : UnusedEntry} : e.isEmpty = true ↔ ∀ k, e.names k = [] := by
  rw [UnusedEntry.isEmpty, Bool.and_eq_true, Bool.and_eq_true, List.isEmpty_iff, List.isEmpty_iff,
    List.isEmpty_iff]
  constructor
  · rintro ⟨⟨hn, hd⟩, hb⟩ k
    cases k with
    | normal => exact hn
    | development => exact hd
    | build => exact hb
  · intro h
    exact ⟨⟨h .normal, h .development⟩, h .build⟩

theorem success_ofEntries (options : RunOptions) (names : NameTables) (unused : UnusedEntries) :
    ∃ b, (ofEntries options names unused).success = .bool b ∧
      (b = true ↔ ∀ e ∈ unused, ∀ k, e.2.names k = []) := by
  refine ⟨_, rfl, ?_⟩
  simp only [List.all_eq_true, isEmpty_iff]

theorem mem_reported {o : Outcome} (distinct : o.unused.Pairwise fun e f => e.1.same f.1 = false)
    {p : PackageId} {k : DependencyKind} {v : Value} :
    v ∈ o.reported p k ↔ ∃ e ∈ o.unused, e.1.same p = true ∧ v ∈ e.2.names k := by
  unfold reported
  constructor
  · intro h
    cases hf : o.unused.find? (·.1.same p) with
    | none => simp [hf] at h
    | some e =>
      have hs : e.1.same p = true := by simpa using List.find?_some hf
      exact ⟨e, List.mem_of_find?_eq_some hf, hs, by simpa [hf] using h⟩
  · rintro ⟨e, he, hs, hv⟩
    rw [PackageId.find?_same_eq distinct he hs]
    exact hv

/-- What is listed is declared, not seen in use and not ignored. -/
theorem mem_reported_of_aggregate {g : Graph} {names : NameTables} {used : UsedDependencies}
    {options : RunOptions} {load : IgnoreLoader} {o : Outcome}
    (h : (aggregate g names used options load).result = .ok o)
    (apart : names.Pairwise fun n n' => n.package.same n'.package = false)
    (p : PackageId) (k : DependencyKind) (v : Value) :
    v ∈ o.reported p k ↔ ∃ n ∈ names, n.package.same p = true ∧ v ∈ (n.table k).declared ∧
      used.contains k ⟨n.package, v⟩ = false ∧ ¬g.Ignores load n.package k v := by
  obtain ⟨sorted, entries, hs, rfl, -⟩ := settled_of_aggregate h
  rw [mem_reported (hs.distinct apart)]
  constructor
  · rintro ⟨e, he, hp, hv⟩
    obtain ⟨n, hn, heq, t, ht⟩ := hs.of_mem he
    exact ⟨n, hn, heq ▸ hp, (ht.mem_names rfl k v).1 hv⟩
  · rintro ⟨n, hn, hp, hv⟩
    obtain ⟨entry, t, ht, hmem⟩ := hs.exists_settles hn
    obtain ⟨e, rfl⟩ := ht.entry_iff.2 ⟨k, v, hv.1, hv.2.1⟩
    exact ⟨e, hmem e rfl, (ht.names e rfl).1 ▸ hp, (ht.mem_names rfl k v).2 hv⟩

/-- Entries are those of the tables, and hold declared names only. -/
theorem exists_tables_of_aggregate {g : Graph} {names : NameTables} {used : UsedDependencies}
    {options : RunOptions} {load : IgnoreLoader} {o : Outcome}
    (h : (aggregate g names used options load).result = .ok o) {e : PackageId × UnusedEntry}
    (he : e ∈ o.unused) : ∃ n ∈ names, e.1 = n.package ∧
      ∀ k, ∀ v ∈ e.2.names k, v ∈ (n.table k).declared := by
  obtain ⟨sorted, entries, settled, rfl, -⟩ := settled_of_aggregate h
  obtain ⟨n, hn, heq, t, ht⟩ := settled.of_mem he
  exact ⟨n, hn, heq, fun k v hv => ((ht.mem_names rfl k v).1 hv).1⟩

theorem success_of_aggregate {g : Graph} {names : NameTables} {used : UsedDependencies}
    {options : RunOptions} {load : IgnoreLoader} {o : Outcome}
    (h : (aggregate g names used options load).result = .ok o)
    (apart : names.Pairwise fun n n' => n.package.same n'.package = false)
    (keyed : ∀ n ∈ names, n.package.same n.package = true) :
    ∃ b, o.success = .bool b ∧ (b = true ↔ ∀ p k v, v ∉ o.reported p k) := by
  obtain ⟨sorted, entries, hs, rfl, -⟩ := settled_of_aggregate h
  obtain ⟨b, hb, hall⟩ := success_ofEntries options names (entries.filterMap id)
  refine ⟨b, hb, hall.trans ?_⟩
  have found : ∀ p k v, v ∈ (ofEntries options names (entries.filterMap id)).reported p k ↔
      ∃ e ∈ entries.filterMap id, e.1.same p = true ∧ v ∈ e.2.names k := fun p k v =>
    mem_reported (hs.distinct apart)
  simp only [found]
  constructor
  · rintro none p k v ⟨e, he, -, hv⟩
    rw [none e he k] at hv
    exact List.not_mem_nil hv
  · intro none e he k
    rw [List.eq_nil_iff_forall_not_mem]
    intro v hv
    obtain ⟨n, hn, heq, -⟩ := hs.of_mem he
    exact none e.1 k v ⟨e, he, heq ▸ keyed n hn, hv⟩

/-! ### Outcomes of texts -/

theorem unmarked_sublist (n : DependencyNames) (used : UsedDependencies) (k : DependencyKind) :
    (unmarked n.package n used k).Sublist (n.table k).declared :=
  List.filter_sublist

theorem listed_sublist (n : DependencyNames) (used : UsedDependencies) (t : Option IgnoreTable)
    (k : DependencyKind) : (listed n.package n used t k).Sublist (n.table k).declared :=
  List.filter_sublist.trans (unmarked_sublist n used k)

theorem ignored_sublist (n : DependencyNames) (used : UsedDependencies) (t : Option IgnoreTable)
    (k : DependencyKind) : (ignored n.package n used t k).Sublist (n.table k).declared :=
  List.filter_sublist.trans (unmarked_sublist n used k)

theorem sortedNames_isOk {vs : List Value} (texts : ∀ v ∈ vs, v.IsText) :
    ∃ ws, sortedNames vs = .ok ws := by
  have keyed : ∀ v ∈ vs, ∃ ss : List String, keysOf? [v] = some (ss.map .text) := fun v hv => by
    obtain ⟨s, rfl⟩ := texts v hv
    exact ⟨[s], rfl⟩
  obtain ⟨ws, hws⟩ := sortByKeys?_isSome keyed
  exact ⟨ws, orWrongType_eq_ok.2 hws⟩

variable {g : Graph} {names : NameTables} {used : UsedDependencies} {options : RunOptions}
  {load : IgnoreLoader}

theorem findings_isOk {p : PackageInfo} {n : DependencyNames} {t : Option IgnoreTable}
    (texts : n.IsTextual) : ∃ entry, findings p n.package n used t = .ok entry := by
  have each (k : DependencyKind) : ∃ ws, sortedNames (listed n.package n used t k) = .ok ws :=
    sortedNames_isOk fun v hv => texts.declared k v ((listed_sublist n used t k).subset hv)
  choose ws hws using each
  unfold findings
  split
  · exact ⟨none, rfl⟩
  · exact ⟨_, bind_eq_ok.2 ⟨_, hws .normal, bind_eq_ok.2 ⟨_, hws .development,
      bind_eq_ok.2 ⟨_, hws .build, rfl⟩⟩⟩⟩

theorem packageEntry_isOk {n : DependencyNames} (texts : n.IsTextual) (known : g.Knows n.package)
    (loads : ∀ p, g.package n.package = .ok p → ∃ t, (load p).result = .ok t) :
    ∃ entry, (packageEntry g used load n).result = .ok entry := by
  obtain ⟨p, -, hp, -⟩ := known.package
  obtain ⟨t, ht⟩ := loads p hp
  have each (k : DependencyKind) : ∃ ws, sortedNames (ignored n.package n used t k) = .ok ws :=
    sortedNames_isOk fun v hv => texts.declared k v ((ignored_sublist n used t k).subset hv)
  choose ignoring hi using each
  have found : ∃ entry, findings p n.package n used t = .ok entry := findings_isOk texts
  obtain ⟨entry, hentry⟩ := found
  unfold packageEntry
  split
  · exact ⟨entry, Logged.result_bind_eq_ok.2 ⟨p, hp, Logged.result_bind_eq_ok.2 ⟨t, ht,
      Logged.result_bind_eq_ok.2 ⟨_, ignoredLines_eq_ok.2 ⟨ignoring, hi, rfl⟩,
        Logged.result_bind_eq_ok.2 ⟨(), rfl, hentry⟩⟩⟩⟩⟩
  · exact ⟨none, rfl⟩

theorem aggregate_isOk (texts : ∀ n ∈ names, n.IsTextual) (known : ∀ n ∈ names, g.Knows n.package)
    (loads : ∀ n ∈ names, ∀ p, g.package n.package = .ok p → ∃ t, (load p).result = .ok t) :
    ∃ o, (aggregate g names used options load).result = .ok o := by
  have keyed : ∀ n ∈ names, ∃ ss : List String, n.package.keys? = some (ss.map .text) :=
    fun n hn => by
      obtain ⟨a, b, c, -, hkeys⟩ := (texts n hn).package.keys?
      exact ⟨[a, b, c], hkeys⟩
  obtain ⟨sorted, hsorted⟩ := sortByKeys?_isSome keyed
  have each : ∀ n ∈ sorted, ∃ entry, (packageEntry g used load n).result = .ok entry :=
    fun n hn => by
      have hn := (mem_sortByKeys? hsorted n).1 hn
      exact packageEntry_isOk (texts n hn) (known n hn) (loads n hn)
  obtain ⟨entries, hentries⟩ := forall₂_of_forall_exists each
  exact ⟨_, Logged.result_bind_eq_ok.2 ⟨sorted, orWrongType_eq_ok.2 hsorted,
    Logged.result_bind_eq_ok.2 ⟨entries, Logged.result_forEach_eq_ok.2 hentries, rfl⟩⟩⟩

end Outcome

end UnusedDeps
