import UnusedDeps.Proofs.Names.Shown
import UnusedDeps.Proofs.Text.Sorted
import UnusedDeps.Report.Human

/-!
# Trees with two levels

A tree has branches with labels, and each branch has leaves. The last branch and the last
leaf of each branch have closing joints, all others open ones, and a vertical edge leads
from an open joint of a branch down to the next one. The report for readers and the warning
about collisions each tell by tests of their own which branch and which leaf is the last;
both draw the same trees. Main statement: `Drawing.draws_trees`.
-/

namespace UnusedDeps

/-! ### The reference drawing -/

/-- A branch of a tree with two levels, which has a label and at least one leaf. -/
structure Branch where
  label : String
  leaves : List String
  filled : leaves ≠ []

/-- The branch with some leaves, where there are any. -/
def Branch.ofLeaves? (label : String) (leaves : List String) : Option Branch :=
  if filled : leaves ≠ [] then some ⟨label, leaves, filled⟩ else none

namespace Drawing

def joint (isLast : Bool) : String := if isLast then "└" else "├"

/-- What stands below a joint. -/
def edge (isLast : Bool) : String := if isLast then " " else "│"

/-- The lines of some elements, of which the last one is drawn as such and no other. -/
def inTurn {α : Type} (draw : Bool → α → List String) (xs : List α) : List String :=
  xs.dropLast.flatMap (draw false) ++ xs.getLast?.toList.flatMap (draw true)

def leafLines (edge : String) (isLast : Bool) (leaf : String) : List String :=
  [edge ++ "    " ++ joint isLast ++ "─── " ++ leaf]

def branchLines (isLast : Bool) (b : Branch) : List String :=
  (joint isLast ++ "─── " ++ b.label) :: inTurn (leafLines (edge isLast)) b.leaves

/-- The lines of a tree. -/
def lines (bs : List Branch) : List String := inTurn branchLines bs

/-! ### Elements in turn -/

section InTurn

variable {α β : Type} {draw : Bool → α → List String}

theorem inTurn_nil : inTurn draw [] = [] := rfl

theorem inTurn_cons (x : α) (xs : List α) :
    inTurn draw (x :: xs) = draw xs.isEmpty x ++ inTurn draw xs := by
  cases xs with
  | nil => simp [inTurn]
  | cons y ys => simp [inTurn, List.append_assoc]

/-- An element that is left out has no lines, and one is the last when all behind it are left out. -/
theorem inTurn_filterMap_cons (f : β → Option α) (x : β) (xs : List β) :
    inTurn draw ((x :: xs).filterMap f) =
      (f x).toList.flatMap (draw (xs.all fun y => (f y).isNone)) ++ inTurn draw (xs.filterMap f) := by
  have last : (xs.filterMap f).isEmpty = xs.all fun y => (f y).isNone := by
    rw [Bool.eq_iff_iff, List.isEmpty_iff, List.filterMap_eq_nil_iff, List.all_eq_true]
    simp only [Option.isNone_iff_eq_none]
  cases hx : f x with
  | none => simp [hx]
  | some a => simp [hx, inTurn_cons, last]

theorem mem_inTurn {xs : List α} {line : String} (h : line ∈ inTurn draw xs) :
    ∃ x ∈ xs, ∃ isLast, line ∈ draw isLast x := by
  rcases List.mem_append.1 h with h | h
  · obtain ⟨x, hx, hline⟩ := List.mem_flatMap.1 h
    exact ⟨x, xs.dropLast_subset hx, false, hline⟩
  · obtain ⟨x, hx, hline⟩ := List.mem_flatMap.1 h
    exact ⟨x, List.mem_of_getLast? (Option.mem_toList.1 hx), true, hline⟩

end InTurn

/-! ### Lines of branches -/

theorem isNone_ofLeaves? (label : String) (leaves : List String) :
    (Branch.ofLeaves? label leaves).isNone = leaves.isEmpty := by
  unfold Branch.ofLeaves?
  cases leaves <;> simp

theorem flatMap_ofLeaves? (isLast : Bool) (label : String) (leaves : List String) :
    (Branch.ofLeaves? label leaves).toList.flatMap (branchLines isLast) =
      if leaves.isEmpty then []
      else (joint isLast ++ "─── " ++ label) :: inTurn (leafLines (edge isLast)) leaves := by
  unfold Branch.ofLeaves?
  cases leaves <;> simp [branchLines]

theorem lineFeed_notMem_lines {bs : List Branch}
    (labels : ∀ b ∈ bs, '\n' ∉ b.label.toList)
    (leaves : ∀ b ∈ bs, ∀ leaf ∈ b.leaves, '\n' ∉ leaf.toList) :
    ∀ line ∈ lines bs, '\n' ∉ line.toList := by
  have joints (isLast : Bool) : '\n' ∉ (joint isLast).toList := by cases isLast <;> decide
  have edges (isLast : Bool) : '\n' ∉ (edge isLast).toList := by cases isLast <;> decide
  intro line hline
  obtain ⟨b, hb, isLast, hline⟩ := mem_inTurn hline
  rcases List.mem_cons.1 hline with rfl | hline
  · simp [joints, labels b hb]
  · obtain ⟨leaf, hleaf, isLastLeaf, hline⟩ := mem_inTurn hline
    cases List.mem_singleton.1 hline
    simp [joints, edges, leaves b hb leaf hleaf]

end Drawing

/-! ### The report for readers -/

namespace Report

def quoted (v : Value) : String := "\"" ++ v.plainText ++ "\""

/-- The branch of a kind, where an entry has names of that kind. -/
def kindBranch? (e : UnusedEntry) (k : DependencyKind) : Option Branch :=
  Branch.ofLeaves? (k.sectionStart ++ "dependencies") ((e.names k).map quoted)

theorem leafLines_eq_inTurn (edge : String) (vs : List Value) :
    leafLines edge vs = Drawing.inTurn (Drawing.leafLines edge) (vs.map quoted) := by
  have joint : "─── \"" = "─── " ++ "\"" := rfl
  induction vs with
  | nil => rfl
  | cons v vs ih =>
    rw [leafLines, ih, List.map_cons, Drawing.inTurn_cons, List.isEmpty_map]
    simp only [Drawing.leafLines, Drawing.joint, quoted, joint, String.append_assoc,
      List.singleton_append]

theorem branchLines_eq_flatMap (e : UnusedEntry) (k : DependencyKind) (isLast : Bool) :
    branchLines k isLast (e.names k) =
      (kindBranch? e k).toList.flatMap (Drawing.branchLines isLast) := by
  rw [kindBranch?, Drawing.flatMap_ofLeaves?, ← leafLines_eq_inTurn, List.isEmpty_map,
    ← String.append_assoc]
  cases isLast <;> rfl

/-- The branches of the kinds that an entry has names of. -/
def kindBranches (e : UnusedEntry) : List Branch := DependencyKind.all.filterMap (kindBranch? e)

theorem treeLines_eq_lines (e : UnusedEntry) : treeLines e = Drawing.lines (kindBranches e) := by
  have none (k : DependencyKind) : (kindBranch? e k).isNone = (e.names k).isEmpty := by
    rw [kindBranch?, Drawing.isNone_ofLeaves?, List.isEmpty_map]
  -- What is last is known from the kinds behind, which is how the report tells it.
  simp only [Drawing.lines, kindBranches, DependencyKind.all, Drawing.inTurn_filterMap_cons, none,
    ← branchLines_eq_flatMap, List.all_cons, List.all_nil, Bool.and_true, List.filterMap_nil,
    Drawing.inTurn_nil, List.append_nil]
  rw [treeLines, List.append_assoc]
  rfl

end Report

/-! ### The warning -/

namespace AmbiguityReport

/-- The entries of a group in the order of the declared names. -/
def byName (found : List (Value × String)) : List (Value × String) :=
  sortByKey (fun e => Text.codes e.1.plainText) found

/-- The branch of the group of a kind, where something collides in it. -/
def groupBranch? (r : AmbiguityReport) (k : DependencyKind) : Option Branch :=
  Branch.ofLeaves? (groupLabel k) ((byName (r.forKind k)).map fun e => leafEnd e.1.plainText e.2)

/-- The branches of the groups in which something collides. -/
def groupBranches (r : AmbiguityReport) : List Branch :=
  [DependencyKind.normal, .build].filterMap r.groupBranch?

/-! ### Entries in order -/

/-- What the entries of a group are sorted by. -/
def entryKeys (e : Value × String) : Option (List Key) := keysOf? [e.1, .text e.2]

/-- Whether entries are a mapping from texts to texts. -/
structure IsMapping (found : List (Value × String)) : Prop where
  distinct : (found.map (·.1)).Nodup
  names : ∀ e ∈ found, e.1.IsCoded
  libraries : ∀ e ∈ found, Text.IsCoded e.2

namespace IsMapping

variable {found : List (Value × String)} (h : IsMapping found)

include h

theorem entryKeys {e : Value × String} (he : e ∈ found) : ∃ s, e.1 = .text s ∧ Text.IsCoded s ∧
    entryKeys e = some [.text s, .text e.2] ∧ ∀ k ∈ [Key.text s, .text e.2], k.IsCoded := by
  obtain ⟨s, hs, coded⟩ := h.names e he
  refine ⟨s, hs, coded, by rw [AmbiguityReport.entryKeys, hs]; rfl, ?_⟩
  simp only [List.forall_mem_cons]
  exact ⟨⟨s, rfl, coded⟩, ⟨e.2, rfl, h.libraries e he⟩, by simp⟩

theorem hasCodedKeys : ∀ e ∈ found, HasCodedKeys AmbiguityReport.entryKeys e := fun _ he => by
  obtain ⟨_, -, -, keys, coded⟩ := h.entryKeys he
  exact ⟨_, keys, coded⟩

/-- Distinct names are told apart by their code points. -/
theorem eq_of_codes_eq {e f : Value × String} (he : e ∈ found) (hf : f ∈ found)
    (same : Text.codes e.1.plainText = Text.codes f.1.plainText) : e = f := by
  refine List.inj_on_of_nodup_map h.distinct he hf ?_
  obtain ⟨s, hs, scoded, -⟩ := h.entryKeys he
  obtain ⟨t, ht, tcoded, -⟩ := h.entryKeys hf
  rw [hs, ht] at same ⊢
  rw [(Text.codes_inj scoded tcoded).1 same]

theorem pairwise_entryKeys :
    found.Pairwise fun e f => AmbiguityReport.entryKeys e ≠ AmbiguityReport.entryKeys f := by
  refine (List.pairwise_map.1 h.distinct).imp_of_mem fun {e f} he hf other same => other ?_
  obtain ⟨s, hs, -, skeys, -⟩ := h.entryKeys he
  obtain ⟨t, ht, -, tkeys, -⟩ := h.entryKeys hf
  rw [skeys, tkeys, Option.some.injEq, List.cons.injEq, Key.text.injEq] at same
  rw [hs, ht, same.1]

/-- Entries that are in order have their names in order. -/
theorem codes_le_of_precedes {e f : Value × String} (he : e ∈ found) (hf : f ∈ found)
    (before : Precedes AmbiguityReport.entryKeys e f) :
    Text.codes e.1.plainText ≤ Text.codes f.1.plainText := by
  obtain ⟨s, hs, -, skeys, scoded⟩ := h.entryKeys he
  obtain ⟨t, ht, -, tkeys, tcoded⟩ := h.entryKeys hf
  obtain ⟨ks, ls, hks, hls, before⟩ := before
  obtain rfl := Option.some.inj (skeys.symm.trans hks)
  obtain rfl := Option.some.inj (tkeys.symm.trans hls)
  have codes := (Key.compareAll?_eq_lt scoded tcoded).1 before
  simp only [List.map_cons, List.cons_lt_cons_iff] at codes
  rw [hs, ht]
  exact codes.elim le_of_lt fun same => le_of_eq same.1

/-- Sorted with the libraries beside them, distinct names come out in the order of the names. -/
theorem sortedNames : sortedNames found = .ok (byName found) := by
  obtain ⟨ys, hys, perm, increasing⟩ := exists_sortByKeys? h.hasCodedKeys h.pairwise_entryKeys
  have inOrder : ys.Pairwise fun e f => Text.codes e.1.plainText ≤ Text.codes f.1.plainText :=
    increasing.imp_of_mem fun he hf => h.codes_le_of_precedes (perm.mem_iff.1 he) (perm.mem_iff.1 hf)
  have same : ys = byName found := by
    refine (perm.trans (List.mergeSort_perm found _).symm).eq_of_pairwise
      (fun e f he hf hef hfe => ?_) inOrder (pairwise_sortByKey _ found)
    exact h.eq_of_codes_eq (perm.mem_iff.1 he) ((mem_sortByKey _ _ f).1 hf) (le_antisymm hef hfe)
  exact orWrongType_eq_ok.2 (same ▸ hys)

end IsMapping

/-! ### The lines of the branches -/

theorem leafLines_eq_inTurn (edge : String) (entries : List (Value × String)) :
    leafLines edge entries = Drawing.inTurn (Drawing.leafLines edge)
      (entries.map fun e => leafEnd e.1.plainText e.2) := by
  induction entries with
  | nil => rfl
  | cons e entries ih =>
    rw [leafLines, ih, List.map_cons, Drawing.inTurn_cons, List.isEmpty_map]
    simp only [leafLine_eq, Drawing.leafLines, Drawing.joint, List.singleton_append]

/-- Whether the group of a kind is the last one that the warning can show. -/
def isLastGroup (r : AmbiguityReport) (k : DependencyKind) : Bool := k = .build || r.build.isEmpty

theorem rails_eq (r : AmbiguityReport) (k : DependencyKind) :
    r.rails k = (Drawing.edge (r.isLastGroup k), Drawing.joint (r.isLastGroup k)) := by
  unfold rails isLastGroup
  cases k <;> cases r.build.isEmpty <;> rfl

theorem byName_swap {e f : Value × String}
    (h : Text.codes f.1.plainText < Text.codes e.1.plainText) : byName [e, f] = [f, e] := by
  simp [byName, sortByKey, List.mergeSort, h]

theorem isEmpty_byName (found : List (Value × String)) :
    (byName found).isEmpty = found.isEmpty := by
  have perm : (byName found).Perm found := List.mergeSort_perm found _
  exact perm.isEmpty_eq

theorem branch_eq_ok {r : AmbiguityReport} (h : ∀ k, IsMapping (r.forKind k)) (k : DependencyKind) :
    r.branch k = .ok ((r.groupBranch? k).toList.flatMap
      (Drawing.branchLines (r.isLastGroup k))) := by
  rw [groupBranch?, Drawing.flatMap_ofLeaves?, List.isEmpty_map, isEmpty_byName,
    ← leafLines_eq_inTurn, branch, branchLines, rails_eq, (h k).sortedNames]
  cases (r.forKind k).isEmpty <;> rfl

theorem treeLines_eq_ok {r : AmbiguityReport} (h : ∀ k, IsMapping (r.forKind k)) :
    r.treeLines = .ok (Drawing.lines r.groupBranches) := by
  have none : (r.groupBranch? .build).isNone = r.build.isEmpty := by
    rw [groupBranch?, Drawing.isNone_ofLeaves?, List.isEmpty_map, isEmpty_byName]
    rfl
  rw [treeLines_eq, branch_eq_ok h, branch_eq_ok h]
  simp only [Drawing.lines, groupBranches, Drawing.inTurn_filterMap_cons, none,
    List.all_cons, List.all_nil, Bool.and_true, List.filterMap_nil,
    Drawing.inTurn_nil, List.append_nil]
  rfl

/-! ### The lines of the warning -/

/-- Whether the identity, the names and the libraries of a report hold no line feed. -/
structure IsUnbroken (r : AmbiguityReport) : Prop where
  package : '\n' ∉ r.package.text.toList
  entries : ∀ k, ∀ e ∈ r.forKind k, '\n' ∉ e.1.plainText.toList ∧ '\n' ∉ e.2.toList

theorem mem_groupBranches {r : AmbiguityReport} {b : Branch} (h : b ∈ r.groupBranches) :
    ∃ k, b.label = groupLabel k ∧
      ∀ leaf ∈ b.leaves, ∃ e ∈ r.forKind k, leaf = leafEnd e.1.plainText e.2 := by
  obtain ⟨k, -, hb⟩ := List.mem_filterMap.1 h
  unfold groupBranch? Branch.ofLeaves? at hb
  split at hb
  · cases hb
    refine ⟨k, rfl, fun leaf hleaf => ?_⟩
    obtain ⟨e, he, rfl⟩ := List.mem_map.1 hleaf
    exact ⟨e, (mem_sortByKey _ _ e).1 he, rfl⟩
  · cases hb

theorem IsUnbroken.lines {r : AmbiguityReport} (h : r.IsUnbroken) :
    ∀ line ∈ Drawing.lines r.groupBranches, '\n' ∉ line.toList := by
  refine Drawing.lineFeed_notMem_lines (fun b hb => ?_) fun b hb leaf hleaf => ?_
  · obtain ⟨k, hlabel, -⟩ := mem_groupBranches hb
    rw [hlabel]
    cases k <;> decide
  · obtain ⟨k, -, leaves⟩ := mem_groupBranches hb
    obtain ⟨e, he, rfl⟩ := leaves leaf hleaf
    simp [leafEnd, h.entries k e he]

end AmbiguityReport

namespace Drawing

/-- The report for readers draws the branches of an entry, and the warning those of a report below
two lines of its own. -/
theorem draws_trees :
    (∀ e : UnusedEntry, Report.treeLines e = lines (Report.kindBranches e)) ∧
      ∀ r : AmbiguityReport, (∀ k, AmbiguityReport.IsMapping (r.forKind k)) →
        ∃ text, r.text = .ok text ∧
        text = String.intercalate "\n" (AmbiguityReport.heading ::
          ("`" ++ r.package.text ++ "`") :: lines r.groupBranches) ∧
        (r.IsUnbroken → (Text.splitOnChar '\n' text).drop 2 = lines r.groupBranches) := by
  refine ⟨Report.treeLines_eq_lines, fun r mapping => ⟨_, ?_, rfl, fun unbroken => ?_⟩⟩
  · rw [AmbiguityReport.text, AmbiguityReport.treeLines_eq_ok mapping]
    rfl
  · rw [Text.splitOnChar_lineFeed (by simp)]
    · rfl
    · simp only [List.forall_mem_cons]
      refine ⟨by decide +kernel, ?_, unbroken.lines⟩
      simpa using unbroken.package

/-- A report with two groups, in which the names do not stand in order. -/
def twoGroups : AmbiguityReport where
  package := ⟨.text "app", .text "0.1.0", .text "path+file:///ws/app"⟩
  normalDev := [(.text "rand07", "rand"), (.text "rand", "rand")]
  build := [(.text "cc2", "cc"), (.text "cc", "cc")]

theorem draws_trees_twoGroups : (∀ k, AmbiguityReport.IsMapping (twoGroups.forKind k)) ∧
    twoGroups.IsUnbroken ∧
    ∃ text, twoGroups.text = .ok text ∧ (Text.splitOnChar '\n' text).drop 2 =
      ["├─── (dev-)dependencies", "│    ├─── \"rand\" → \"rand\"",
        "│    └─── \"rand07\" → \"rand\"", "└─── build-dependencies",
        "     ├─── \"cc\" → \"cc\"", "     └─── \"cc2\" → \"cc\""] := by
  have mapping (k : DependencyKind) : AmbiguityReport.IsMapping (twoGroups.forKind k) := by
    have normalDev : AmbiguityReport.IsMapping twoGroups.normalDev := by
      refine ⟨by decide, ?_, ?_⟩ <;> simp only [twoGroups, List.forall_mem_cons]
      · exact ⟨Value.isCoded_of_plain (by decide), Value.isCoded_of_plain (by decide), by simp⟩
      · exact ⟨Text.isCoded_of_plain (by decide), Text.isCoded_of_plain (by decide), by simp⟩
    have build : AmbiguityReport.IsMapping twoGroups.build := by
      refine ⟨by decide, ?_, ?_⟩ <;> simp only [twoGroups, List.forall_mem_cons]
      · exact ⟨Value.isCoded_of_plain (by decide), Value.isCoded_of_plain (by decide), by simp⟩
      · exact ⟨Text.isCoded_of_plain (by decide), Text.isCoded_of_plain (by decide), by simp⟩
    cases k with
    | build => exact build
    | _ => exact normalDev
  have unbroken : twoGroups.IsUnbroken := by
    refine ⟨by decide, fun k => ?_⟩
    cases k <;> decide
  obtain ⟨text, written, -, lines⟩ := draws_trees.2 twoGroups mapping
  have normalDev : AmbiguityReport.byName twoGroups.normalDev = twoGroups.normalDev.reverse :=
    AmbiguityReport.byName_swap (by decide)
  have build : AmbiguityReport.byName twoGroups.build = twoGroups.build.reverse :=
    AmbiguityReport.byName_swap (by decide)
  refine ⟨mapping, unbroken, text, written, (lines unbroken).trans ?_⟩
  unfold AmbiguityReport.groupBranches AmbiguityReport.groupBranch?
  simp only [List.filterMap_cons, AmbiguityReport.forKind, normalDev, build]
  rfl

end Drawing

end UnusedDeps
