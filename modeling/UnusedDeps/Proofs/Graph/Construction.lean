import Mathlib.Data.List.Induction
import UnusedDeps.Graph.Resolve
import UnusedDeps.Proofs.Keys

/-!
# Graphs of resolver documents

What the graph of a document is made of. Packages, edges and members are taken
up one at a time and identities that are the same package fall together, so the
packages of a graph are distinct, every edge joins two of them and every member
is one. The edges that the entries of a document give are described by `Gives`.
-/

namespace UnusedDeps

namespace Graph

/-- Whether an identity is that of a package of the graph. -/
def Knows (g : Graph) (id : PackageId) : Prop := ∃ p ∈ g.packages, p.id.same id = true

theorem Knows.package {g : Graph} {id : PackageId} (h : g.Knows id) :
    ∃ p ∈ g.packages, g.package id = .ok p ∧ p.id.same id = true := by
  obtain ⟨q, hq, hid⟩ := h
  cases hf : g.packages.find? (·.id.same id) with
  | none => exact absurd hid (List.find?_eq_none.1 hf q hq)
  | some p =>
    have hs : p.id.same id = true := by simpa using List.find?_some hf
    exact ⟨p, List.mem_of_find?_eq_some hf, by simp [Graph.package, package?, hf], hs⟩

theorem package_eq_ok {g : Graph} {id : PackageId} {p : PackageInfo} :
    g.package id = .ok p ↔ g.package? id = some p := by
  unfold Graph.package
  cases g.package? id <;> simp

theorem of_package {g : Graph} {id : PackageId} {p : PackageInfo} (h : g.package id = .ok p) :
    p ∈ g.packages ∧ p.id.same id = true := by
  have hf : g.packages.find? (·.id.same id) = some p := package_eq_ok.1 h
  exact ⟨List.mem_of_find?_eq_some hf, by simpa using List.find?_some hf⟩

end Graph

/-! ### Replacing what is the same -/

section Replacing

variable {α : Type} {xs : List α} {x : α}

theorem mem_replaced_iff {s : α → Bool} {y : α} :
    y ∈ (if xs.any s then xs.map fun z => if s z then x else z else xs ++ [x]) ↔
      y = x ∨ y ∈ xs ∧ s y = false := by
  by_cases found : xs.any s = true
  · rw [if_pos found, List.mem_map]
    constructor
    · rintro ⟨z, hz, rfl⟩
      by_cases hs : s z = true
      · exact .inl (if_pos hs)
      · exact .inr (by simpa [hs] using hz)
    · rintro (rfl | ⟨hy, hs⟩)
      · obtain ⟨z, hz, hs⟩ := List.any_eq_true.1 found
        exact ⟨z, hz, if_pos hs⟩
      · exact ⟨y, hy, by simp [hs]⟩
  · have fresh (hy : y ∈ xs) : s y = false :=
      Bool.eq_false_iff.2 fun hs => found (List.any_eq_true.2 ⟨y, hy, hs⟩)
    rw [if_neg found, List.mem_append, List.mem_singleton]
    constructor
    · rintro (hy | rfl)
      · exact .inr ⟨hy, fresh hy⟩
      · exact .inl rfl
    · rintro (rfl | ⟨hy, -⟩)
      · exact .inr rfl
      · exact .inl hy

/-- An element that takes the place of what is the same leaves distinct elements distinct. -/
theorem pairwise_replaced {same : α → α → Bool}
    (symm : ∀ {a b}, same a b = true → same b a = true)
    (trans : ∀ {a b c}, same a b = true → same b c = true → same a c = true)
    (h : xs.Pairwise fun a b => same a b = false) :
    (if xs.any (same x) then xs.map fun z => if same x z then x else z else xs ++ [x]).Pairwise
      fun a b => same a b = false := by
  split
  · rw [List.pairwise_map]
    refine h.imp fun {a b} hab => ?_
    by_contra hs
    rw [Bool.not_eq_false] at hs
    refine Bool.eq_false_iff.1 hab ?_
    split at hs
    · rename_i ha
      split at hs
      · rename_i hb
        exact trans (symm ha) hb
      · exact trans (symm ha) hs
    · split at hs
      · rename_i hb
        exact trans hs hb
      · exact hs
  · rename_i fresh
    rw [List.pairwise_append]
    refine ⟨h, List.pairwise_singleton _ _, fun a ha b hb => ?_⟩
    cases List.mem_singleton.1 hb
    exact Bool.eq_false_iff.2 fun hs => fresh (List.any_eq_true.2 ⟨a, ha, symm hs⟩)

end Replacing

namespace Graph

/-! ### One more package -/

@[simp] theorem edges_addPackage (g : Graph) (p : PackageInfo) :
    (g.addPackage p).edges = g.edges := rfl

@[simp] theorem members_addPackage (g : Graph) (p : PackageInfo) :
    (g.addPackage p).members = g.members := rfl

theorem mem_addPackage_iff {g : Graph} {p q : PackageInfo} :
    q ∈ (g.addPackage p).packages ↔ q = p ∨ q ∈ g.packages ∧ q.id.same p.id = false :=
  mem_replaced_iff

theorem mem_addPackage {g : Graph} {p q : PackageInfo} (h : q ∈ (g.addPackage p).packages) :
    q ∈ g.packages ∨ q = p :=
  (mem_addPackage_iff.1 h).symm.imp_left And.left

theorem mem_addPackage_self (g : Graph) (p : PackageInfo) : p ∈ (g.addPackage p).packages :=
  mem_addPackage_iff.2 (.inl rfl)

theorem Knows.addPackage {g : Graph} {id : PackageId} (h : g.Knows id) (p : PackageInfo) :
    (g.addPackage p).Knows id := by
  obtain ⟨q, hq, hid⟩ := h
  by_cases hs : q.id.same p.id = true
  · exact ⟨p, mem_addPackage_self g p, PackageId.same_trans (PackageId.same_symm hs) hid⟩
  · exact ⟨q, mem_addPackage_iff.2 (.inr ⟨hq, by simpa using hs⟩), hid⟩

theorem distinct_addPackage {g : Graph} (p : PackageInfo)
    (h : g.packages.Pairwise fun q r => q.id.same r.id = false) :
    (g.addPackage p).packages.Pairwise fun q r => q.id.same r.id = false := by
  let same (q r : PackageInfo) : Bool := q.id.same r.id
  have distinct := @pairwise_replaced _ _ p same PackageId.same_symm PackageId.same_trans h
  simp only [same, PackageId.same_comm p.id] at distinct
  exact distinct

/-! ### One more edge -/

@[simp] theorem packages_addEdge (g : Graph) (e : Edge) :
    (g.addEdge e).packages = g.packages := rfl

@[simp] theorem members_addEdge (g : Graph) (e : Edge) :
    (g.addEdge e).members = g.members := rfl

theorem mem_addEdge_iff {g : Graph} {e f : Edge} :
    f ∈ (g.addEdge e).edges ↔ f = e ∨ f ∈ g.edges ∧ e.sameEntry f = false :=
  mem_replaced_iff

theorem mem_addEdge {g : Graph} {e f : Edge} (h : f ∈ (g.addEdge e).edges) :
    f ∈ g.edges ∨ f = e :=
  (mem_addEdge_iff.1 h).symm.imp_left And.left

theorem mem_addEdge_self (g : Graph) (e : Edge) : e ∈ (g.addEdge e).edges :=
  mem_addEdge_iff.2 (.inl rfl)

end Graph

namespace Edge

theorem sameEntry_iff {e f : Edge} :
    e.sameEntry f = true ↔ e.source.same f.source = true ∧ e.target.same f.target = true ∧
      e.kind = f.kind ∧ e.name = f.name := by
  simp [sameEntry, and_assoc]

theorem sameEntry_symm {e f : Edge} (h : e.sameEntry f = true) : f.sameEntry e = true := by
  obtain ⟨hs, ht, hk, hn⟩ := sameEntry_iff.1 h
  exact sameEntry_iff.2 ⟨PackageId.same_symm hs, PackageId.same_symm ht, hk.symm, hn.symm⟩

theorem sameEntry_trans {e f d : Edge} (h : e.sameEntry f = true) (h' : f.sameEntry d = true) :
    e.sameEntry d = true := by
  obtain ⟨hs, ht, hk, hn⟩ := sameEntry_iff.1 h
  obtain ⟨hs', ht', hk', hn'⟩ := sameEntry_iff.1 h'
  exact sameEntry_iff.2 ⟨PackageId.same_trans hs hs', PackageId.same_trans ht ht',
    hk.trans hk', hn.trans hn'⟩

end Edge

namespace Graph

theorem exists_sameEntry_addEdge {g : Graph} {d : Edge} (e : Edge)
    (h : ∃ f ∈ g.edges, f.sameEntry d = true) :
    ∃ f ∈ (g.addEdge e).edges, f.sameEntry d = true := by
  obtain ⟨f, hf, hd⟩ := h
  by_cases hs : e.sameEntry f = true
  · exact ⟨e, mem_addEdge_self g e, Edge.sameEntry_trans hs hd⟩
  · exact ⟨f, mem_addEdge_iff.2 (.inr ⟨hf, by simpa using hs⟩), hd⟩

theorem distinct_addEdge {g : Graph} (e : Edge)
    (h : g.edges.Pairwise fun d f => d.sameEntry f = false) :
    (g.addEdge e).edges.Pairwise fun d f => d.sameEntry f = false :=
  pairwise_replaced Edge.sameEntry_symm Edge.sameEntry_trans h

@[simp] theorem packages_addEdges (g : Graph) (es : List Edge) :
    (es.foldl addEdge g).packages = g.packages := by
  induction es generalizing g with
  | nil => rfl
  | cons e es ih => rw [List.foldl_cons, ih, packages_addEdge]

@[simp] theorem members_addEdges (g : Graph) (es : List Edge) :
    (es.foldl addEdge g).members = g.members := by
  induction es generalizing g with
  | nil => rfl
  | cons e es ih => rw [List.foldl_cons, ih, members_addEdge]

theorem mem_addEdges {g : Graph} {es : List Edge} {f : Edge}
    (h : f ∈ (es.foldl addEdge g).edges) : f ∈ g.edges ∨ f ∈ es := by
  induction es generalizing g with
  | nil => exact .inl h
  | cons e es ih =>
    rcases ih h with h | h
    · rcases mem_addEdge h with h | rfl
      · exact .inl h
      · exact .inr List.mem_cons_self
    · exact .inr (List.mem_cons_of_mem e h)

/-- An edge that was taken up, or one for the same entry and target that replaced it. -/
theorem exists_sameEntry_addEdges {g : Graph} {es : List Edge} {d : Edge}
    (h : (∃ f ∈ g.edges, f.sameEntry d = true) ∨ d ∈ es ∧ d.sameEntry d = true) :
    ∃ f ∈ (es.foldl addEdge g).edges, f.sameEntry d = true := by
  induction es generalizing g with
  | nil => exact h.elim id fun h => absurd h.1 List.not_mem_nil
  | cons e es ih =>
    refine ih ?_
    rcases h with h | ⟨h, hd⟩
    · exact .inl (exists_sameEntry_addEdge e h)
    · rcases List.mem_cons.1 h with rfl | h
      · exact .inl ⟨d, mem_addEdge_self g d, hd⟩
      · exact .inr ⟨h, hd⟩

theorem distinct_addEdges {g : Graph} (es : List Edge)
    (h : g.edges.Pairwise fun d f => d.sameEntry f = false) :
    (es.foldl addEdge g).edges.Pairwise fun d f => d.sameEntry f = false := by
  induction es generalizing g with
  | nil => exact h
  | cons e es ih => exact ih (distinct_addEdge e h)

/-- Of the edges for one entry and target, the last one that was taken up stays. -/
theorem mem_addEdges_iff {g : Graph} (hg : g.edges = []) {es : List Edge} {f : Edge} :
    f ∈ (es.foldl addEdge g).edges ↔
      ∃ before after, es = before ++ f :: after ∧ ∀ d ∈ after, d.sameEntry f = false := by
  induction es using List.reverseRecOn with
  | nil => simp [hg]
  | append_singleton es e ih =>
    rw [List.foldl_append, List.foldl_cons, List.foldl_nil, mem_addEdge_iff, ih]
    constructor
    · rintro (rfl | ⟨⟨before, after, rfl, later⟩, hs⟩)
      · exact ⟨es, [], rfl, by simp⟩
      · refine ⟨before, after ++ [e], by simp, fun d hd => ?_⟩
        rcases List.mem_append.1 hd with hd | hd
        · exact later d hd
        · exact List.mem_singleton.1 hd ▸ hs
    · rintro ⟨before, after, heq, later⟩
      rcases List.eq_nil_or_concat after with rfl | ⟨rest, d, rfl⟩
      · obtain ⟨-, hlast⟩ := List.append_inj' heq rfl
        exact .inl (List.cons.inj hlast).1.symm
      · rw [List.concat_eq_append, ← List.cons_append, ← List.append_assoc] at heq
        obtain ⟨rfl, hlast⟩ := List.append_inj' heq rfl
        cases hlast
        refine .inr ⟨⟨before, rest, rfl, fun d hd => ?_⟩, later e (by simp)⟩
        exact later d (by simp [hd])

/-! ### One more member -/

@[simp] theorem packages_addMember (g : Graph) (id : PackageId) :
    (g.addMember id).packages = g.packages := rfl

@[simp] theorem edges_addMember (g : Graph) (id : PackageId) :
    (g.addMember id).edges = g.edges := rfl

theorem mem_addMember {g : Graph} {id m : PackageId} (h : m ∈ (g.addMember id).members) :
    m ∈ g.members ∨ m = id := by
  unfold addMember at h
  dsimp only at h
  split at h
  · exact .inl h
  · simpa using h

theorem distinct_addMember {g : Graph} (id : PackageId)
    (h : g.members.Pairwise fun m n => m.same n = false) :
    (g.addMember id).members.Pairwise fun m n => m.same n = false := by
  unfold addMember
  dsimp only
  split
  · exact h
  · rename_i fresh
    rw [List.pairwise_append]
    refine ⟨h, List.pairwise_singleton _ _, fun m hm n hn => ?_⟩
    cases List.mem_singleton.1 hn
    exact Bool.eq_false_iff.2 fun hs => fresh (List.any_eq_true.2 ⟨m, hm, hs⟩)

@[simp] theorem packages_addMembers (g : Graph) (ids : List PackageId) :
    (ids.foldl addMember g).packages = g.packages := by
  induction ids generalizing g with
  | nil => rfl
  | cons id ids ih => rw [List.foldl_cons, ih, packages_addMember]

@[simp] theorem edges_addMembers (g : Graph) (ids : List PackageId) :
    (ids.foldl addMember g).edges = g.edges := by
  induction ids generalizing g with
  | nil => rfl
  | cons id ids ih => rw [List.foldl_cons, ih, edges_addMember]

theorem mem_addMembers {g : Graph} {ids : List PackageId} {m : PackageId}
    (h : m ∈ (ids.foldl addMember g).members) : m ∈ g.members ∨ m ∈ ids := by
  induction ids generalizing g with
  | nil => exact .inl h
  | cons id ids ih =>
    rcases ih h with h | h
    · rcases mem_addMember h with h | rfl
      · exact .inl h
      · exact .inr List.mem_cons_self
    · exact .inr (List.mem_cons_of_mem id h)

/-- A member that was taken up, or one that is the same and was there before. -/
theorem exists_same_addMembers {g : Graph} {ids : List PackageId} {id : PackageId}
    (h : (∃ m ∈ g.members, m.same id = true) ∨ id ∈ ids ∧ id.same id = true) :
    ∃ m ∈ (ids.foldl addMember g).members, m.same id = true := by
  induction ids generalizing g with
  | nil =>
    rcases h with h | ⟨h, -⟩
    · exact h
    · cases h
  | cons i ids ih =>
    refine ih ?_
    have kept {j : PackageId} (hj : j ∈ g.members) : j ∈ (g.addMember i).members := by
      unfold addMember
      dsimp only
      split
      · exact hj
      · exact List.mem_append_left _ hj
    rcases h with ⟨m, hm, hs⟩ | ⟨hid, hself⟩
    · exact .inl ⟨m, kept hm, hs⟩
    · rcases List.mem_cons.1 hid with rfl | hid
      · by_cases found : g.members.any (·.same id) = true
        · obtain ⟨m, hm, hs⟩ := List.any_eq_true.1 found
          exact .inl ⟨m, kept hm, hs⟩
        · exact .inl ⟨id, by simp [addMember, found], hself⟩
      · exact .inr ⟨hid, hself⟩

theorem distinct_addMembers {g : Graph} (ids : List PackageId)
    (h : g.members.Pairwise fun m n => m.same n = false) :
    (ids.foldl addMember g).members.Pairwise fun m n => m.same n = false := by
  induction ids generalizing g with
  | nil => exact h
  | cons id ids ih => exact ih (distinct_addMember id h)

end Graph

end UnusedDeps
