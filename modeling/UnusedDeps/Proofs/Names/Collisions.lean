import UnusedDeps.Proofs.Graph.Registry
import UnusedDeps.Proofs.Mapping
import UnusedDeps.Proofs.Outcome.Entries
import UnusedDeps.Proofs.Usage.Evidence

/-!
# Colliding names

Two dependencies of one kind collide when they are declared under different
names and their libraries have the same library name. A report lists the names
that collide, each with a library under which it does; what one table adds to a
list of collisions is said once and holds for the union over a group of kinds.
Evidence cannot tell colliding names apart, so it counts for every one of them.
Main statement: `AmbiguityReport.exact_warnAll`.
-/

namespace UnusedDeps

/-- Whether a name of a kind of a package collides with another one under a library name. -/
def Graph.Collides (g : Graph) (p : PackageId) (k : DependencyKind) (library name : String) :
    Prop :=
  ∃ e ∈ g.edges, ∃ f ∈ g.edges, (e.source.same p = true ∧ f.source.same p = true) ∧
    (e.kind = k ∧ f.kind = k) ∧ e.name = name ∧ f.name ≠ name ∧
    e.HasLibrary library ∧ f.HasLibrary library

theorem Graph.collides_congr (g : Graph) {p q : PackageId} (h : p.same q = true)
    (k : DependencyKind) (l name : String) : g.Collides p k l name ↔ g.Collides q k l name := by
  have sources (e : Edge) : e.source.same p = true ↔ e.source.same q = true :=
    ⟨fun he => PackageId.same_trans he h,
      fun he => PackageId.same_trans he (PackageId.same_symm h)⟩
  simp only [Graph.Collides, sources]

/-! ### Pairs of texts -/

theorem keys_setByKey {α : Type} {k : Value} (a : α) {pairs : List (Value × α)}
    (hk : k.IsText) (texts : ∀ e ∈ pairs, e.1.IsText) :
    (setByKey k a pairs).map (·.1) =
      if k ∈ pairs.map (·.1) then pairs.map (·.1) else pairs.map (·.1) ++ [k] := by
  induction pairs with
  | nil => rfl
  | cons e rest ih =>
    rw [List.forall_mem_cons] at texts
    unfold setByKey
    by_cases same : e.1.sameKey k = true
    · have heq := (Value.sameKey_iff_eq texts.1 hk).1 same
      rw [if_pos same, List.map_cons, List.map_cons, heq, if_pos List.mem_cons_self]
    · have other : k ≠ e.1 := fun heq => same ((Value.sameKey_iff_eq texts.1 hk).2 heq.symm)
      rw [if_neg same, List.map_cons, List.map_cons, ih texts.2]
      simp only [List.mem_cons, other, false_or]
      split <;> rfl

theorem mem_setByKey_of_isText {α : Type} {k : Value} {a : α} {pairs : List (Value × α)}
    (hk : k.IsText) (texts : ∀ e ∈ pairs, e.1.IsText) {e : Value × α}
    (h : e ∈ setByKey k a pairs) : e ∈ pairs ∨ e = (k, a) := by
  induction pairs with
  | nil => exact .inr (List.mem_singleton.1 h)
  | cons f rest ih =>
    rw [List.forall_mem_cons] at texts
    unfold setByKey at h
    split at h
    · rename_i same
      rw [(Value.sameKey_iff_eq texts.1 hk).1 same] at h
      exact (List.mem_cons.1 h).symm.imp_left (List.mem_cons_of_mem f)
    · rcases List.mem_cons.1 h with rfl | h
      · exact .inl List.mem_cons_self
      · exact (ih texts.2 h).imp_left (List.mem_cons_of_mem f)

theorem one_lt_length_iff_exists_ne {α : Type} {xs : List α} (distinct : xs.Nodup) {x : α}
    (hx : x ∈ xs) : 1 < xs.length ↔ ∃ y ∈ xs, y ≠ x := by
  constructor
  · intro long
    by_contra none
    push Not at none
    have all := List.eq_replicate_of_mem none
    rw [all, List.nodup_replicate] at distinct
    omega
  · rintro ⟨y, hy, other⟩
    match xs, hx, hy with
    | [z], hx, hy =>
      rw [List.mem_singleton] at hx hy
      exact absurd (hy.trans hx.symm) other
    | _ :: _ :: _, _, _ =>
      simp only [List.length_cons]
      omega

/-! ### The names behind one library -/

namespace NameTable

theorem pairwise_libraryNames_add {t t' : NameTable} {e : Edge}
    (h : ∀ l, (t.libraryNames l).Pairwise fun v w => v.sameKey w = false)
    (hadd : t.add e.declaredName = .ok t') (l : String) :
    (t'.libraryNames l).Pairwise fun v w => v.sameKey w = false := by
  rcases add_cases hadd with ⟨-, rfl⟩ | ⟨s, -, rfl⟩
  · exact h l
  · rw [libraryNames_addLibrary]
    split
    · exact pairwise_insertKey _ (h l)
    · exact h l

theorem pairwise_libraryNames {es : List Edge} {t : NameTable}
    (h : ofNames (es.map Edge.declaredName) = .ok t) (l : String) :
    (t.libraryNames l).Pairwise fun v w => v.sameKey w = false := by
  induction es using List.reverseRecOn generalizing t l with
  | nil => exact Except.ok.inj h ▸ List.Pairwise.nil
  | append_singleton es e ih =>
    obtain ⟨u, hu, hadd⟩ := ofNames_append_singleton.1 h
    exact pairwise_libraryNames_add (ih hu) hadd l

/-- Whether a value is one of several declared names behind a library name. -/
def Collides (t : NameTable) (library : String) (v : Value) : Prop :=
  v ∈ t.libraryNames library ∧ 1 < (t.libraryNames library).length

theorem collides_iff {es : List Edge} {t : NameTable}
    (h : ofNames (es.map Edge.declaredName) = .ok t) {l : String} {v : Value} :
    t.Collides l v ↔ ∃ name, v = .text name ∧ ∃ e ∈ es, ∃ f ∈ es, e.name = name ∧ f.name ≠ name ∧
      e.HasLibrary l ∧ f.HasLibrary l := by
  have describes := describes_ofNames h
  have distinct : (t.libraryNames l).Nodup :=
    nodup_of_pairwise_sameKey (describes.names_isText l) (pairwise_libraryNames h l)
  constructor
  · rintro ⟨hv, long⟩
    obtain ⟨w, hw, other⟩ := (one_lt_length_iff_exists_ne distinct hv).1 long
    obtain ⟨e, he, hel, rfl⟩ := (describes.byLibrary l v).1 hv
    obtain ⟨f, hf, hfl, rfl⟩ := (describes.byLibrary l w).1 hw
    exact ⟨e.name, rfl, e, he, f, hf, rfl, fun heq => other (congrArg _ heq), hel, hfl⟩
  · rintro ⟨_, rfl, e, he, f, hf, rfl, other, hel, hfl⟩
    have hv := (describes.byLibrary l _).2 ⟨e, he, hel, rfl⟩
    have hw := (describes.byLibrary l _).2 ⟨f, hf, hfl, rfl⟩
    refine ⟨hv, (one_lt_length_iff_exists_ne distinct hv).2 ⟨_, hw, fun heq => other ?_⟩⟩
    exact Value.text.inj heq

end NameTable

/-! ### The tables of a package -/

namespace DependencyNames

theorem tables_ofGraph {g : Graph} {id : PackageId} {n : DependencyNames}
    (h : ofGraph g id = .ok n) : n.package = id ∧ ∃ es, g.dependencies id = .ok es ∧
      ∀ k, NameTable.ofNames ((es.filter fun e => e.kind = k).map Edge.declaredName) =
        .ok (n.table k) := by
  obtain ⟨es, hes, h⟩ := bind_eq_ok.1 h
  obtain ⟨normal, hnormal, h⟩ := bind_eq_ok.1 h
  obtain ⟨development, hdevelopment, h⟩ := bind_eq_ok.1 h
  obtain ⟨build, hbuild, h⟩ := bind_eq_ok.1 h
  cases pure_eq_ok.1 h
  refine ⟨rfl, es, hes, fun k => ?_⟩
  cases k with
  | normal => exact hnormal
  | development => exact hdevelopment
  | build => exact hbuild

theorem collides_iff {g : Graph} {n : DependencyNames} (h : ofGraph g n.package = .ok n)
    {k : DependencyKind} {l : String} {v : Value} :
    (n.table k).Collides l v ↔ ∃ name, v = .text name ∧ g.Collides n.package k l name := by
  obtain ⟨-, es, hes, tables⟩ := tables_ofGraph h
  have ofKind (e : Edge) : e ∈ es.filter (fun e => e.kind = k) ↔
      (e ∈ g.edges ∧ e.source.same n.package = true) ∧ e.kind = k := by
    rw [List.mem_filter, Graph.mem_dependencies hes, decide_eq_true_eq]
  rw [NameTable.collides_iff (tables k)]
  refine exists_congr fun name => and_congr_right fun _ => ?_
  simp only [ofKind]
  constructor
  · rintro ⟨e, ⟨⟨he, hes⟩, hek⟩, f, ⟨⟨hf, hfs⟩, hfk⟩, rest⟩
    exact ⟨e, he, f, hf, ⟨hes, hfs⟩, ⟨hek, hfk⟩, rest⟩
  · rintro ⟨e, he, f, hf, ⟨hes, hfs⟩, ⟨hek, hfk⟩, rest⟩
    exact ⟨e, ⟨⟨he, hes⟩, hek⟩, f, ⟨⟨hf, hfs⟩, hfk⟩, rest⟩

end DependencyNames

namespace NameTables

theorem each_ofGraph {g : Graph} {names : NameTables} (h : ofGraph g = .ok names) :
    ∀ n ∈ names, DependencyNames.ofGraph g n.package = .ok n := by
  intro n hn
  obtain ⟨_, -, h⟩ := bind_eq_ok.1 h
  obtain ⟨_, -, h⟩ := bind_eq_ok.1 h
  obtain ⟨p, -, hof⟩ := exists_left_of_forall₂ (mapM_eq_ok.1 h) hn
  rw [(DependencyNames.tables_ofGraph hof).1]
  exact hof

/-- The tables stand in the order of the identities of their packages. -/
theorem pairwise_ofGraph {g : Graph} {names : NameTables} (hg : g.WellFormed) (coded : g.IsCoded)
    (h : ofGraph g = .ok names) :
    names.Pairwise fun n n' => n.package.Before n'.package := by
  obtain ⟨ms, hms, h⟩ := bind_eq_ok.1 h
  obtain ⟨ps, hps, h⟩ := bind_eq_ok.1 h
  obtain ⟨ms', hms', -, increasing⟩ := coded.exists_sortedMembers hg.membersDistinct
  cases hms.symm.trans hms'
  -- The package of a member has the keys of the member.
  have keysOf : ∀ {m p}, g.package m = .ok p → p.id.keys? = m.keys? := fun hp => by
    obtain ⟨ks, hk, hk'⟩ := PackageId.same_iff.1 (Graph.of_package hp).2
    rw [hk, hk']
  have packages : ps.Pairwise fun p p' => p.id.Before p'.id := by
    refine pairwise_of_forall₂ (mapM_eq_ok.1 hps) increasing fun hp hp' before => ?_
    obtain ⟨ks, ls, hk, hl, hlt⟩ := before
    exact ⟨ks, ls, (keysOf hp).trans hk, (keysOf hp').trans hl, hlt⟩
  refine pairwise_of_forall₂ (mapM_eq_ok.1 h) packages fun hn hn' before => ?_
  rw [(DependencyNames.tables_ofGraph hn).1, (DependencyNames.tables_ofGraph hn').1]
  exact before

end NameTables

/-! ### Lists of collisions -/

namespace AmbiguityReport

/-- Whether a list gives, for exactly the values that collide under some library name, one under
which they do. -/
structure Lists (found : List (Value × String)) (collide : String → Value → Prop) : Prop where
  texts : ∀ e ∈ found, e.1.IsText
  distinct : (found.map (·.1)).Nodup
  keys : ∀ v, v ∈ found.map (·.1) ↔ ∃ l, collide l v
  libraries : ∀ e ∈ found, collide e.2 e.1

theorem lists_nil : Lists [] fun _ _ => False where
  texts := fun _ h => absurd h List.not_mem_nil
  distinct := List.nodup_nil
  keys := fun v => by simp
  libraries := fun _ h => absurd h List.not_mem_nil

theorem Lists.congr {found : List (Value × String)} {P Q : String → Value → Prop}
    (h : Lists found P) (same : ∀ l v, P l v ↔ Q l v) : Lists found Q where
  texts := h.texts
  distinct := h.distinct
  keys := fun v => (h.keys v).trans (exists_congr fun l => same l v)
  libraries := fun e he => (same e.2 e.1).1 (h.libraries e he)

theorem Lists.setByKey {found : List (Value × String)} {P : String → Value → Prop}
    (h : Lists found P) {v : Value} (hv : v.IsText) (l : String) :
    Lists (setByKey v l found) fun m w => P m w ∨ m = l ∧ w = v where
  texts := fun e he => (mem_setByKey_of_isText hv h.texts he).elim (h.texts e) fun heq => heq ▸ hv
  distinct := by
    rw [keys_setByKey l hv h.texts]
    split
    · exact h.distinct
    · rename_i fresh
      refine List.nodup_append.2 ⟨h.distinct, List.nodup_singleton v, ?_⟩
      rintro w hw _ hv rfl
      exact fresh (List.mem_singleton.1 hv ▸ hw)
  keys := fun w => by
    have grown : w ∈ (UnusedDeps.setByKey v l found).map (·.1) ↔ w ∈ found.map (·.1) ∨ w = v := by
      rw [keys_setByKey l hv h.texts]
      split
      · rename_i known
        exact ⟨.inl, fun h => h.elim id fun heq => heq ▸ known⟩
      · rw [List.mem_append, List.mem_singleton]
    rw [grown, h.keys, exists_or, exists_eq_left]
  libraries := fun e he => by
    rcases mem_setByKey_of_isText hv h.texts he with he | rfl
    · exact .inl (h.libraries e he)
    · exact .inr ⟨rfl, rfl⟩

theorem Lists.setAll {vs : List Value} (texts : ∀ v ∈ vs, v.IsText) (l : String)
    {found : List (Value × String)} {P : String → Value → Prop} (h : Lists found P) :
    Lists (vs.foldl (fun m n => UnusedDeps.setByKey n l m) found)
      fun m w => P m w ∨ m = l ∧ w ∈ vs := by
  induction vs generalizing found P with
  | nil => exact h.congr fun m w => by simp
  | cons v vs ih =>
    rw [List.forall_mem_cons] at texts
    refine (ih texts.2 (h.setByKey texts.1 l)).congr fun m w => ?_
    rw [or_assoc, ← and_or_left, List.mem_cons]

/-- What the entries of a table add. -/
theorem Lists.addEntries {entries : Mapping String (List Value)}
    (texts : ∀ e ∈ entries, ∀ v ∈ e.2, v.IsText) {found : List (Value × String)}
    {P : String → Value → Prop} (h : Lists found P) :
    Lists (entries.foldl (fun found (library, names) =>
        if 1 < names.length then names.foldl (fun m n => UnusedDeps.setByKey n library m) found
        else found) found)
      fun l w => P l w ∨ ∃ e ∈ entries, e.1 = l ∧ w ∈ e.2 ∧ 1 < e.2.length := by
  induction entries generalizing found P with
  | nil => exact h.congr fun l w => by simp
  | cons entry entries ih =>
    rw [List.forall_mem_cons] at texts
    rw [List.foldl_cons]
    have one : Lists (if 1 < entry.2.length then
          entry.2.foldl (fun m n => UnusedDeps.setByKey n entry.1 m) found else found)
        fun l w => P l w ∨ (entry.1 = l ∧ w ∈ entry.2 ∧ 1 < entry.2.length) := by
      split
      · rename_i long
        refine (h.setAll texts.1 entry.1).congr fun l w => ?_
        simp only [long, and_true, eq_comm]
      · rename_i short
        exact h.congr fun l w => by simp [short]
    refine (ih texts.2 one).congr fun l w => ?_
    rw [or_assoc, List.exists_mem_cons_iff]

/-- What a table adds: the names that collide in it. -/
theorem Lists.collisions {es : List Edge} {t : NameTable} (describes : t.Describes es)
    {found : List (Value × String)} {P : String → Value → Prop} (h : Lists found P) :
    Lists (collisions found t) fun l w => P l w ∨ t.Collides l w := by
  refine (h.addEntries describes.byLibrary_isText).congr fun l w => or_congr_right ?_
  constructor
  · rintro ⟨⟨_, vs⟩, he, rfl, hw, long⟩
    have found : t.libraryNames _ = vs :=
      congrArg (Option.getD · []) (Mapping.get?_of_mem describes.libraries he)
    exact ⟨found ▸ hw, found ▸ long⟩
  · rintro ⟨hw, long⟩
    unfold NameTable.libraryNames Mapping.get? at hw long
    cases hf : t.byLibrary.find? fun e => e.1 = l with
    | none =>
      rw [hf] at hw
      cases hw
    | some e =>
      rw [hf] at hw long
      have key : e.1 = l := by simpa using List.find?_some hf
      exact ⟨e, List.mem_of_find?_eq_some hf, key, hw, long⟩

/-- The colliding names of the group of a kind. -/
def forKind (r : AmbiguityReport) : DependencyKind → List (Value × String)
  | .build => r.build
  | _ => r.normalDev

theorem isEmpty_iff (r : AmbiguityReport) : r.isEmpty = true ↔ ∀ k, r.forKind k = [] := by
  rw [isEmpty, Bool.and_eq_true, List.isEmpty_iff, List.isEmpty_iff]
  constructor
  · rintro ⟨normalDev, build⟩ k
    cases k with
    | normal => exact normalDev
    | development => exact normalDev
    | build => exact build
  · intro none
    exact ⟨none .normal, none .build⟩

theorem lists_ofNames {n : DependencyNames} {es : List Edge} (describe : n.Describe es)
    (k : DependencyKind) :
    Lists ((ofNames n).forKind k) fun l v => ∃ k', k.SharesUse k' ∧ (n.table k').Collides l v := by
  have normal := lists_nil.collisions (describe .normal)
  have normalDev := normal.collisions (describe .development)
  have build := lists_nil.collisions (describe .build)
  cases k with
  | build =>
    refine build.congr fun l v => ⟨fun h => ⟨.build, Iff.rfl, h.elim False.elim id⟩, ?_⟩
    rintro ⟨k', shares, collides⟩
    cases shares.1 rfl
    exact .inr collides
  | _ =>
    refine normalDev.congr fun l v => ⟨?_, ?_⟩
    · rintro ((⟨⟨⟩⟩ | collides) | collides)
      · exact ⟨.normal, by simp [DependencyKind.SharesUse], collides⟩
      · exact ⟨.development, by simp [DependencyKind.SharesUse], collides⟩
    · rintro ⟨k', shares, collides⟩
      cases k' with
      | normal => exact .inl (.inr collides)
      | development => exact .inr collides
      | build => cases shares.2 rfl

/-! ### Reports -/

/-- Whether reports tell of the collisions of the members of a graph, and of nothing else. -/
structure Exact (g : Graph) (reports : List AmbiguityReport) : Prop where
  ordered : reports.Pairwise fun r s => r.package.Before s.package
  members : ∀ r ∈ reports, ∃ m ∈ g.members, r.package.same m = true
  complete : ∀ m ∈ g.members,
    (∃ r ∈ reports, r.package.same m = true) ↔ ∃ k l name, g.Collides m k l name
  distinct : ∀ r ∈ reports, ∀ k, ((r.forKind k).map (·.1)).Nodup
  keys : ∀ r ∈ reports, ∀ k v, v ∈ (r.forKind k).map (·.1) ↔
    ∃ name, v = .text name ∧ ∃ k' l, k.SharesUse k' ∧ g.Collides r.package k' l name
  libraries : ∀ r ∈ reports, ∀ k, ∀ e ∈ r.forKind k,
    ∃ name, e.1 = .text name ∧ ∃ k', k.SharesUse k' ∧ g.Collides r.package k' e.2 name

/-- Whether a unit that refers to a library counts as evidence for every name that collides under
its library name. -/
def Generous (g : Graph) (names : NameTables) (reports : List AmbiguityReport) : Prop :=
  ∀ artifacts records used, (UsedDependencies.ofRecords names artifacts records).result = .ok used →
    ∀ r ∈ reports, ∀ record ∈ records, record.package.same r.package = true →
      ∀ a, (artifacts record).result = .ok a → ∀ k l name, g.Collides r.package k l name →
        l ∈ a.libraries → used.contains k ⟨r.package, .text name⟩ = true ∧
          ∀ options ignores o, (Outcome.aggregate g names used options ignores).result = .ok o →
            .text name ∉ o.reported r.package k

theorem warnAll_eq_ok {names : NameTables} {reports : List AmbiguityReport}
    (h : (warnAll names).result = .ok reports) : reports = ofTables names := by
  have same := (Logged.result_forEach_eq_ok.1 h).imp fun r s hs => by
    obtain ⟨_, -, hs⟩ := Logged.result_bind_eq_ok.1 hs
    obtain ⟨_, -, hs⟩ := Logged.result_bind_eq_ok.1 hs
    exact Except.ok.inj hs
  rw [List.forall₂_eq_eq_eq] at same
  exact same.symm

theorem mem_ofTables {names : NameTables} {r : AmbiguityReport} :
    r ∈ ofTables names ↔ ∃ n ∈ names, ofNames n = r ∧ ∃ k, r.forKind k ≠ [] := by
  rw [ofTables, List.mem_filter, List.mem_map]
  simp only [Bool.not_eq_true', ← Bool.not_eq_true, isEmpty_iff, not_forall]
  exact ⟨fun ⟨⟨n, hn, heq⟩, found⟩ => ⟨n, hn, heq, found⟩,
    fun ⟨n, hn, heq, found⟩ => ⟨⟨n, hn, heq⟩, found⟩⟩

section

variable {g : Graph} {names : NameTables}

theorem lists_of_mem (hd : names.Describe g) (h : NameTables.ofGraph g = .ok names)
    {n : DependencyNames} (hn : n ∈ names) (k : DependencyKind) :
    Lists ((ofNames n).forKind k) fun l v =>
      ∃ name, v = .text name ∧ ∃ k', k.SharesUse k' ∧ g.Collides n.package k' l name := by
  obtain ⟨es, -, describe⟩ := hd.tables n hn
  refine (lists_ofNames describe k).congr fun l v => ?_
  simp only [DependencyNames.collides_iff (NameTables.each_ofGraph h n hn)]
  constructor
  · rintro ⟨k', shares, name, rfl, collides⟩
    exact ⟨name, rfl, k', shares, collides⟩
  · rintro ⟨name, rfl, k', shares, collides⟩
    exact ⟨k', shares, name, rfl, collides⟩

theorem exact_ofTables (hg : g.WellFormed) (coded : g.IsCoded)
    (h : NameTables.ofGraph g = .ok names) : Exact g (ofTables names) := by
  have hd := NameTables.describe_ofGraph hg h
  refine ⟨?_, fun r hr => ?_, fun m hm => ?_, fun r hr k => ?_, fun r hr k v => ?_,
    fun r hr k e he => ?_⟩
  · have increasing := NameTables.pairwise_ofGraph hg coded h
    have reports : (names.map ofNames).Pairwise fun r s => r.package.Before s.package :=
      List.pairwise_map.2 increasing
    exact reports.filter _
  · obtain ⟨n, hn, rfl, -⟩ := mem_ofTables.1 hr
    exact hd.members n hn
  · constructor
    · rintro ⟨r, hr, hs⟩
      obtain ⟨n, hn, rfl, k, found⟩ := mem_ofTables.1 hr
      obtain ⟨e, he⟩ := List.exists_mem_of_ne_nil _ found
      obtain ⟨name, -, k', -, collides⟩ := (lists_of_mem hd h hn k).libraries e he
      exact ⟨k', e.2, name, (Graph.collides_congr g hs k' _ name).1 collides⟩
    · rintro ⟨k, l, name, collides⟩
      obtain ⟨n, hn, hs⟩ := hd.complete m hm
      have collides := (Graph.collides_congr g hs k l name).2 collides
      have listed := ((lists_of_mem hd h hn k).keys (.text name)).2
        ⟨l, name, rfl, k, Iff.rfl, collides⟩
      refine ⟨ofNames n, mem_ofTables.2 ⟨n, hn, rfl, k, fun none => ?_⟩, hs⟩
      rw [none] at listed
      cases listed
  · obtain ⟨n, hn, rfl, -⟩ := mem_ofTables.1 hr
    exact (lists_of_mem hd h hn k).distinct
  · obtain ⟨n, hn, rfl, -⟩ := mem_ofTables.1 hr
    rw [(lists_of_mem hd h hn k).keys]
    constructor
    · rintro ⟨l, name, rfl, k', shares, collides⟩
      exact ⟨name, rfl, k', l, shares, collides⟩
    · rintro ⟨name, rfl, k', l, shares, collides⟩
      exact ⟨l, name, rfl, k', shares, collides⟩
  · obtain ⟨n, hn, rfl, -⟩ := mem_ofTables.1 hr
    exact (lists_of_mem hd h hn k).libraries e he

theorem generous_ofTables (hd : names.Describe g) : Generous g names (ofTables names) := by
  intro artifacts records used hused r hr record hrecord ofPackage a ha k l name collides referred
  obtain ⟨n, hn, rfl, -⟩ := mem_ofTables.1 hr
  obtain ⟨e, he, -, -, ⟨hs, -⟩, ⟨hk, -⟩, hname, -, hlib, -⟩ := collides
  obtain ⟨es, hes, -⟩ := hd.tables n hn
  have declared : e ∈ es.filter fun e => e.kind = k :=
    List.mem_filter.2 ⟨(Graph.mem_dependencies hes e).2 ⟨he, hs⟩, by simpa using hk⟩
  have shown : record.Evidences g artifacts n.package k name :=
    ⟨ofPackage, a, es, k, ha, hes, Iff.rfl, .throughLibrary e l declared hname hlib referred⟩
  have seen := (UsedDependencies.contains_ofRecords hd hused hn k name).2 ⟨record, hrecord, shown⟩
  refine ⟨seen, fun options ignores o ho listed => ?_⟩
  obtain ⟨n', hn', hs', -, unseen, -⟩ :=
    (Outcome.mem_reported_of_aggregate ho hd.distinct _ k _).1 listed
  have same : n' = n := Option.some.inj ((hd.get?_eq hn' hs').symm.trans
    (hd.get?_eq hn (PackageId.same_trans (PackageId.same_symm hs') hs')))
  rw [same] at unseen
  cases seen.symm.trans unseen

end

/-- The reports on a graph tell of its collisions exactly, and evidence for one colliding name is
evidence for all of them. -/
theorem exact_warnAll {g : Graph} (hg : g.WellFormed) (textual : g.IsTextual) (coded : g.IsCoded) :
    ∃ names reports, NameTables.ofGraph g = .ok names ∧ (warnAll names).result = .ok reports ∧
      Exact g reports ∧ Generous g names reports := by
  obtain ⟨names, hnames⟩ := NameTables.ofGraph_isOk hg textual
  have hd := NameTables.describe_ofGraph hg hnames
  have libraries : ∀ n ∈ names, ∀ k, ∀ e ∈ (n.table k).byLibrary, ∀ v ∈ e.2, v.IsText :=
    fun n hn k => by
      obtain ⟨es, -, describe⟩ := hd.tables n hn
      exact (describe k).byLibrary_isText
  obtain ⟨reports, hreports⟩ := warnAll_isOk libraries
  refine ⟨names, reports, hnames, hreports, ?_⟩
  rw [warnAll_eq_ok hreports]
  exact ⟨exact_ofTables hg coded hnames, generous_ofTables hd⟩

/-- A member that depends on two packages whose libraries have one library name. -/
def sharedLibrary : ResolverDocument :=
  soleMember [⟨some "left", .null, .absent⟩, ⟨some "right", .null, .absent⟩]
    [("left", "left", .null), ("right", "right", .null)]
    [("left", some "shared-lib"), ("right", some "shared_lib")]

theorem exact_warnAll_sharedLibrary : ∃ g names reports,
    Graph.ofDocument sharedLibrary = .ok g ∧ NameTables.ofGraph g = .ok names ∧
      (warnAll names).result = .ok reports ∧ Exact g reports ∧ Generous g names reports ∧
      g.Collides (registryId "app") .normal "shared_lib" "left" := by
  let left : Edge := ⟨registryId "app", registryId "left", .normal, "left", .text "left",
    some (.text "shared-lib")⟩
  let right : Edge := ⟨registryId "app", registryId "right", .normal, "right", .text "right",
    some (.text "shared_lib")⟩
  let g : Graph := ⟨[registryPackage "app" none, registryPackage "left" (some "shared-lib"),
    registryPackage "right" (some "shared_lib")], [left, right], [registryId "app"]⟩
  have h : Graph.ofDocument sharedLibrary = .ok g := rfl
  have entries : sharedLibrary.packageEntries =
      [("app", [⟨some "left", .null, .absent⟩, ⟨some "right", .null, .absent⟩], none),
        ("left", [], some "shared-lib"), ("right", [], some "shared_lib")].map
          fun p => registryEntry p.1 p.2.1 p.2.2 := rfl
  have coded : sharedLibrary.IsCoded := by
    refine isCoded_of_registry entries ?_ ?_
    · simp only [List.forall_mem_cons, List.not_mem_nil, false_imp_iff, implies_true, and_true]
      exact ⟨Text.isCoded_of_plain (by decide), Text.isCoded_of_plain (by decide),
        Text.isCoded_of_plain (by decide)⟩
    · simp
  obtain ⟨names, reports, hnames, hreports, exact, generous⟩ :=
    exact_warnAll (Graph.wellFormed_ofDocument h)
      (Graph.isTextual_ofDocument h (isTextual_soleMember _ _ _)) (Graph.isCoded_ofDocument h coded)
  refine ⟨g, names, reports, h, hnames, hreports, exact, generous, left, List.mem_cons_self, right,
    List.mem_cons_of_mem _ List.mem_cons_self, ⟨rfl, rfl⟩, ⟨rfl, rfl⟩, rfl, by decide,
    ⟨_, rfl, ?_⟩, ⟨_, rfl, ?_⟩⟩
  · decide
  · decide

end AmbiguityReport

end UnusedDeps
