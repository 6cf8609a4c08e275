import UnusedDeps.Proofs.Outcome.Conservation
import UnusedDeps.Proofs.Package.Text
import UnusedDeps.Report.Human

/-!
# Findings read back from the report for readers

The first character of a line tells what it is: a backtick starts a package, a joint
starts a branch and an edge starts a leaf, whatever the name in it holds. So the lines of
a package end where the next one starts, and those of a branch likewise. The note starts
with a letter that no line of the tree starts with. Main statement:
`Report.sameFindings_of_human`.
-/

namespace UnusedDeps

/-! ### Groups of lines -/

section Groups

variable {α β γ : Type}

theorem map_eq_map_of_forall {f : α → β} {g : α → γ} {as bs : List α}
    (inj : ∀ a ∈ as, ∀ b ∈ bs, f a = f b → g a = g b) (h : as.map f = bs.map f) :
    as.map g = bs.map g := by
  induction as generalizing bs with
  | nil =>
    cases bs with
    | nil => rfl
    | cons b bs => cases h
  | cons a as ih =>
    cases bs with
    | nil => cases h
    | cons b bs =>
      simp only [List.map_cons, List.cons.injEq] at h ⊢
      refine ⟨inj a List.mem_cons_self b List.mem_cons_self h.1, ih (fun a' ha' b' hb' => ?_) h.2⟩
      exact inj a' (List.mem_cons_of_mem a ha') b' (List.mem_cons_of_mem b hb')

/-- Whether a group is a head that `p` takes with members that it does not take. -/
structure IsHeaded (p : β → Bool) (g : β × List β) : Prop where
  head : p g.1 = true
  members : ∀ m ∈ g.2, p m = false

variable {p : β → Bool} {gs hs : List (β × List β)}

theorem takeWhile_groups {ms : List β} (hm : ∀ m ∈ ms, p m = false)
    (hg : ∀ g ∈ gs, IsHeaded p g) :
    (ms ++ gs.flatMap fun g => g.1 :: g.2).takeWhile (!p ·) = ms := by
  have rest : (gs.flatMap fun g => g.1 :: g.2).takeWhile (!p ·) = [] := by
    cases gs with
    | nil => rfl
    | cons g gs =>
      have head := (hg g List.mem_cons_self).head
      rw [List.flatMap_cons, List.cons_append, List.takeWhile_cons_of_neg (by simp [head])]
  rw [List.takeWhile_append_of_pos (by simpa using hm), rest, List.append_nil]

/-- Groups are known from the list of their heads and members. -/
theorem groups_inj (hg : ∀ g ∈ gs, IsHeaded p g) (hh : ∀ h ∈ hs, IsHeaded p h)
    (same : (gs.flatMap fun g => g.1 :: g.2) = hs.flatMap fun h => h.1 :: h.2) : gs = hs := by
  induction gs generalizing hs with
  | nil =>
    cases hs with
    | nil => rfl
    | cons h hs => cases same
  | cons g gs ih =>
    cases hs with
    | nil => cases same
    | cons h hs =>
      rw [List.forall_mem_cons] at hg hh
      simp only [List.flatMap_cons, List.cons_append, List.cons.injEq] at same
      obtain ⟨heads, tails⟩ := same
      -- The members of both groups end where the next head stands.
      have members := congrArg (List.takeWhile (!p ·)) tails
      rw [takeWhile_groups hg.1.members hg.2, takeWhile_groups hh.1.members hh.2] at members
      rw [members, List.append_cancel_left_eq] at tails
      rw [Prod.ext heads members, ih hg.2 hh.2 tails]

end Groups

namespace Report

/-! ### Branches -/

/-- The line of a branch, which is the last of its package or not. -/
def branchLabel (b : DependencyKind × Bool) : String :=
  (if b.2 then "└" else "├") ++ "─── " ++ b.1.sectionStart ++ "dependencies"

def branchEdge (isLast : Bool) : String := if isLast then " " else "│"

/-- The kinds that an entry has names of, and whether each is the last of them. -/
def branches (e : UnusedEntry) : List (DependencyKind × Bool) :=
  [(.normal, e.development.isEmpty && e.build.isEmpty), (.development, e.build.isEmpty),
    (.build, true)].filter fun b => !(e.names b.1).isEmpty

def branchGroup (e : UnusedEntry) (b : DependencyKind × Bool) : String × List String :=
  (branchLabel b, leafLines (branchEdge b.2) (e.names b.1))

theorem branchLines_cons (k : DependencyKind) (isLast : Bool) (v : Value) (vs : List Value) :
    branchLines k isLast (v :: vs) =
      branchLabel (k, isLast) :: leafLines (branchEdge isLast) (v :: vs) := by
  cases isLast <;> rfl

theorem treeLines_eq (e : UnusedEntry) :
    treeLines e = ((branches e).map (branchGroup e)).flatMap fun g => g.1 :: g.2 := by
  obtain ⟨path, normal, development, build⟩ := e
  have none (k : DependencyKind) (isLast : Bool) : branchLines k isLast [] = [] := rfl
  cases normal <;> cases development <;> cases build <;>
    simp [treeLines, branches, branchGroup, UnusedEntry.names, none, branchLines_cons]

theorem exists_mem_branches {e : UnusedEntry} {k : DependencyKind} :
    (∃ isLast, (k, isLast) ∈ branches e) ↔ e.names k ≠ [] := by
  cases k <;> simp [branches]

theorem branchLabel_injective : Function.Injective branchLabel := by
  rintro ⟨k, isLast⟩ ⟨k', isLast'⟩ h
  revert h
  cases k <;> cases k' <;> cases isLast <;> cases isLast' <;> decide

theorem leafLines_inj {edge : String} {vs ws : List Value} (hv : ∀ v ∈ vs, v.IsText)
    (hw : ∀ w ∈ ws, w.IsText) (h : leafLines edge vs = leafLines edge ws) : vs = ws := by
  induction vs generalizing ws with
  | nil =>
    cases ws with
    | nil => rfl
    | cons w ws => cases h
  | cons v vs ih =>
    cases ws with
    | nil => cases h
    | cons w ws =>
      rw [List.forall_mem_cons] at hv hw
      simp only [leafLines, List.cons.injEq] at h
      obtain ⟨first, rest⟩ := h
      -- The lines behind tell whether the leaf is the last, so the joints are the same.
      obtain rfl := ih hv.2 hw.2 rest
      obtain ⟨⟨s, rfl⟩, ⟨t, rfl⟩⟩ := And.intro hv.1 hw.1
      have names : s = t := by simpa [Value.plainText] using first
      rw [names]

/-! ### First characters -/

def startsIn (cs : List Char) (line : String) : Bool := line.toList.head?.any cs.contains

theorem startsIn_eq_false {cs ds : List Char} {line : String} (h : startsIn cs line = true)
    (apart : ∀ c ∈ cs, c ∉ ds) : startsIn ds line = false := by
  cases hc : line.toList.head? with
  | none => simp [startsIn, hc] at h
  | some c =>
    have inside : c ∈ cs := by simpa [startsIn, hc] using h
    simpa [startsIn, hc] using apart c inside

theorem startsIn_append {cs : List Char} {s t : String} (h : startsIn cs s = true) :
    startsIn cs (s ++ t) = true := by
  cases hs : s.toList with
  | nil => simp [startsIn, hs] at h
  | cons c cs => simpa [startsIn, hs] using h

theorem startsIn_branchLabel (b : DependencyKind × Bool) :
    startsIn ['├', '└'] (branchLabel b) = true := by
  obtain ⟨k, isLast⟩ := b
  cases k <;> cases isLast <;> decide

theorem mem_leafLines {edge line : String} {vs : List Value} (h : line ∈ leafLines edge vs) :
    ∃ joint ∈ ["└", "├"], ∃ v ∈ vs,
      line = edge ++ ("    " ++ joint ++ "─── \"" ++ v.plainText ++ "\"") := by
  induction vs with
  | nil => cases h
  | cons v vs ih =>
    rcases List.mem_cons.1 h with rfl | h
    · refine ⟨if vs.isEmpty then "└" else "├", ?_, v, List.mem_cons_self, ?_⟩
      · split <;> decide
      · simp only [String.append_assoc]
    · obtain ⟨joint, hj, w, hw, heq⟩ := ih h
      exact ⟨joint, hj, w, List.mem_cons_of_mem v hw, heq⟩

theorem startsIn_leafLines {isLast : Bool} {vs : List Value} {line : String}
    (h : line ∈ leafLines (branchEdge isLast) vs) : startsIn [' ', '│'] line = true := by
  obtain ⟨joint, -, v, -, rfl⟩ := mem_leafLines h
  refine startsIn_append ?_
  cases isLast <;> decide

theorem mem_treeLines {e : UnusedEntry} {line : String} (h : line ∈ treeLines e) :
    (∃ b, line = branchLabel b) ∨ ∃ isLast k, line ∈ leafLines (branchEdge isLast) (e.names k) := by
  rw [treeLines_eq, List.mem_flatMap] at h
  obtain ⟨g, hg, h⟩ := h
  obtain ⟨b, -, rfl⟩ := List.mem_map.1 hg
  exact (List.mem_cons.1 h).imp (fun heq => ⟨b, heq⟩) fun hl => ⟨b.2, b.1, hl⟩

theorem startsIn_treeLines {e : UnusedEntry} {line : String} (h : line ∈ treeLines e)
    {ds : List Char} (apart : ∀ c ∈ ['├', '└', ' ', '│'], c ∉ ds) : startsIn ds line = false := by
  rcases mem_treeLines h with ⟨b, rfl⟩ | ⟨isLast, k, hl⟩
  · exact startsIn_eq_false (startsIn_branchLabel b) fun c hc =>
      apart c (List.mem_append_left [' ', '│'] hc)
  · exact startsIn_eq_false (startsIn_leafLines hl) fun c hc =>
      apart c (List.mem_append_right ['├', '└'] hc)

/-! ### The tree of a package -/

theorem isHeaded_branchGroup (e : UnusedEntry) (b : DependencyKind × Bool) :
    IsHeaded (startsIn ['├', '└']) (branchGroup e b) where
  head := startsIn_branchLabel b
  members _ h := startsIn_eq_false (startsIn_leafLines h) (by simp)

/-- The names of an entry are known from the lines of its tree. -/
theorem names_eq_of_treeLines_eq {e f : UnusedEntry} (he : ∀ k, ∀ v ∈ e.names k, v.IsText)
    (hf : ∀ k, ∀ v ∈ f.names k, v.IsText) (h : treeLines e = treeLines f) : e.names = f.names := by
  rw [treeLines_eq, treeLines_eq] at h
  have groups := groups_inj (List.forall_mem_map.2 fun b _ => isHeaded_branchGroup e b)
    (List.forall_mem_map.2 fun b _ => isHeaded_branchGroup f b) h
  have kinds : branches e = branches f := by
    have labels := congrArg (List.map Prod.fst) groups
    rw [List.map_map, List.map_map] at labels
    exact List.map_injective_iff.2 branchLabel_injective labels
  rw [← kinds] at groups
  funext k
  by_cases hk : e.names k = []
  · -- A kind without a branch has no names on the other side either.
    have none : f.names k = [] := by
      by_contra some
      rw [← ne_eq, ← exists_mem_branches, ← kinds, exists_mem_branches] at some
      exact some hk
    rw [hk, none]
  · obtain ⟨isLast, hb⟩ := exists_mem_branches.2 hk
    have leaves := congrArg Prod.snd (List.map_inj_left.1 groups _ hb)
    exact leafLines_inj (he k) (hf k) leaves

/-! ### Packages -/

def packageGroup (e : PackageId × UnusedEntry) : String × List String :=
  ("`" ++ e.1.text ++ "`", treeLines e.2)

theorem flatMap_packageLines (es : UnusedEntries) :
    es.flatMap packageLines = (es.map packageGroup).flatMap fun g => g.1 :: g.2 := by
  rw [List.flatMap_map]
  rfl

theorem isHeaded_packageGroup (e : PackageId × UnusedEntry) :
    IsHeaded (startsIn ['`']) (packageGroup e) where
  head := startsIn_append (startsIn_append (by decide))
  members _ h := startsIn_treeLines h (by simp)

theorem entries_eq_of_packageLines_eq {es fs : UnusedEntries} (ids : ∀ e ∈ es ++ fs, e.1.IsTextual)
    (spaceless : ∀ e ∈ es ++ fs, e.1.IsSpaceless)
    (names : ∀ e ∈ es ++ fs, ∀ k, ∀ v ∈ e.2.names k, v.IsText)
    (h : es.flatMap packageLines = fs.flatMap packageLines) :
    (es.map fun e => (e.1, e.2.names)) = fs.map fun e => (e.1, e.2.names) := by
  rw [flatMap_packageLines, flatMap_packageLines] at h
  have groups := groups_inj (List.forall_mem_map.2 fun e _ => isHeaded_packageGroup e)
    (List.forall_mem_map.2 fun e _ => isHeaded_packageGroup e) h
  refine map_eq_map_of_forall (fun e he f hf same => ?_) groups
  have he := List.mem_append_left fs he
  have hf := List.mem_append_right es hf
  obtain ⟨heads, trees⟩ := Prod.ext_iff.1 same
  have texts : e.1.text = f.1.text := by simpa [packageGroup] using heads
  rw [PackageId.eq_of_text_eq (ids e he) (ids f hf) (spaceless e he) (spaceless f hf) texts,
    names_eq_of_treeLines_eq (names e he) (names f hf) trees]

/-! ### The lines and the note -/

/-- Lines that end at line feeds, and a text behind them that starts like none of them, are known
from the whole. -/
theorem endedLines_inj {c : Char} (hc : c ≠ '\n') {ls ms : List String} {s t : String}
    (hl : ∀ l ∈ ls, '\n' ∉ l.toList ∧ startsIn [c] l = false)
    (hm : ∀ m ∈ ms, '\n' ∉ m.toList ∧ startsIn [c] m = false)
    (hs : startsIn [c] s = true) (ht : startsIn [c] t = true)
    (h : (ls.flatMap fun l => l.toList ++ ['\n']) ++ s.toList =
      (ms.flatMap fun m => m.toList ++ ['\n']) ++ t.toList) : ls = ms ∧ s = t := by
  have other {s l : String} (hs : startsIn [c] s = true) (hl : startsIn [c] l = false)
      (r : List Char) : s.toList ≠ l.toList ++ '\n' :: r := by
    intro heq
    cases hd : l.toList with
    | nil => simp [startsIn, heq, hd, hc.symm] at hs
    | cons d ds => simp_all [startsIn]
  -- Neither list of lines ends before the other: what stands behind it starts with `c`.
  induction ls generalizing ms with
  | nil =>
    cases ms with
    | nil => exact ⟨rfl, String.toList_inj.1 h⟩
    | cons m ms =>
      rw [List.forall_mem_cons] at hm
      simp only [List.flatMap_nil, List.nil_append, List.flatMap_cons, List.append_assoc,
        List.singleton_append] at h
      exact absurd h (other hs hm.1.2 _)
  | cons l ls ih =>
    rw [List.forall_mem_cons] at hl
    cases ms with
    | nil =>
      simp only [List.flatMap_nil, List.nil_append, List.flatMap_cons, List.append_assoc,
        List.singleton_append] at h
      exact absurd h.symm (other ht hl.1.2 _)
    | cons m ms =>
      rw [List.forall_mem_cons] at hm
      simp only [List.flatMap_cons, List.append_assoc, List.singleton_append] at h
      obtain ⟨first, rest⟩ := Text.append_cons_inj hl.1.1 hm.1.1 h
      obtain ⟨rfl, rfl⟩ := ih hl.2 hm.2 rest
      exact ⟨by rw [String.toList_inj.1 first], rfl⟩

theorem toList_intercalate_lines (l : String) (ls : List String) :
    (String.intercalate "\n" (l :: ls) ++ "\n").toList =
      (l :: ls).flatMap fun l => l.toList ++ ['\n'] := by
  have feed : "\n".toList = ['\n'] := rfl
  rw [String.toList_append, String.toList_intercalate, feed]
  induction ls generalizing l with
  | nil => simp
  | cons m ls ih =>
    rw [List.map_cons, List.map_cons, List.intercalate_cons_cons, List.flatMap_cons, ← ih m,
      List.map_cons]
    simp only [List.append_assoc]

theorem lineFeed_notMem_branchLabel (b : DependencyKind × Bool) :
    '\n' ∉ (branchLabel b).toList := by
  obtain ⟨k, isLast⟩ := b
  cases k <;> cases isLast <;> decide

theorem lineFeed_notMem_treeLines {e : UnusedEntry}
    (names : ∀ k, ∀ v ∈ e.names k, '\n' ∉ v.plainText.toList) {line : String}
    (h : line ∈ treeLines e) : '\n' ∉ line.toList := by
  rcases mem_treeLines h with ⟨b, rfl⟩ | ⟨isLast, k, hl⟩
  · exact lineFeed_notMem_branchLabel b
  · obtain ⟨joint, hj, v, hv, rfl⟩ := mem_leafLines hl
    have edge : '\n' ∉ (branchEdge isLast).toList := by cases isLast <;> decide
    have joints : ∀ joint ∈ ["└", "├"], '\n' ∉ joint.toList := by decide
    simp [edge, joints joint hj, names k v hv]

end Report

/-! ### Outcomes of runs -/

namespace Outcome

/-- Whether an outcome is that of a run over distinct packages, whose identities and names are
texts. -/
def IsAggregated (o : Outcome) : Prop :=
  ∃ (g : Graph) (names : NameTables) (used : UsedDependencies) (options : RunOptions)
    (load : IgnoreLoader), (names.Pairwise fun n n' => n.package.same n'.package = false) ∧
    (∀ n ∈ names, n.IsCoded) ∧ (aggregate g names used options load).result = .ok o

/-- What holds of the entries and the note of every run. -/
structure IsSettled (o : Outcome) : Prop where
  ids : ∀ e ∈ o.unused, e.1.IsCoded
  increasing : o.unused.Pairwise fun e f => e.1.Before f.1
  names : ∀ e ∈ o.unused, ∀ k, ∀ v ∈ e.2.names k, v.IsCoded
  note : o.success = .bool false → ∃ options tables, o.note = .text (buildNote options tables)

theorem IsAggregated.isSettled {o : Outcome} (h : o.IsAggregated) : o.IsSettled := by
  obtain ⟨g, names, used, options, load, apart, coded, ho⟩ := h
  have tables := fun e (he : e ∈ o.unused) => exists_tables_of_aggregate ho he
  obtain ⟨sorted, entries, settled, rfl, -⟩ := settled_of_aggregate ho
  refine ⟨fun e he => ?_, settled.pairwise_entries apart coded, fun e he k v hv => ?_, ?_⟩
  · obtain ⟨n, hn, heq, -⟩ := tables e he
    exact heq ▸ (coded n hn).package
  · obtain ⟨n, hn, -, declared⟩ := tables e he
    exact (coded n hn).declared k v (declared k v hv)
  · intro failing
    refine ⟨options, names, ?_⟩
    have listed : ((entries.filterMap id).all fun e => e.2.isEmpty) = false :=
      Value.bool.inj failing
    simp only [ofEntries, listed, Bool.false_eq_true, if_false]

theorem IsSettled.sorted {o : Outcome} (h : o.IsSettled) : o.unused.sorted = .ok o.unused := by
  have coded : ∀ e ∈ o.unused, HasCodedKeys (fun e : PackageId × UnusedEntry => e.1.keys?) e :=
    fun e he => (h.ids e he).hasCodedKeys
  exact orWrongType_eq_ok.2 (sortByKeys?_of_pairwise coded h.increasing)

theorem reported_congr {o o' : Outcome}
    (h : (o.unused.map fun e => (e.1, e.2.names)) = o'.unused.map fun e => (e.1, e.2.names))
    (p : PackageId) (k : DependencyKind) : o.reported p k = o'.reported p k := by
  have lookup (es : UnusedEntries) : (es.find? (·.1.same p)).map (·.2.names k) =
      ((es.map fun e => (e.1, e.2.names)).find? (·.1.same p)).map (·.2 k) := by
    rw [List.find?_map, Option.map_map]
    rfl
  rw [reported, reported, lookup, lookup, h]

/-- Whatever hints a note holds, it starts with the word for one. -/
theorem startsIn_buildNote (options : RunOptions) (names : NameTables) :
    Report.startsIn ['N'] (buildNote options names) = true := by
  have targets : Report.startsIn ['N'] noteOtherTargets = true := by decide
  have nonLibrary : Report.startsIn ['N'] noteNonLibrary = true := by decide
  have start : Report.startsIn ['N'] "Note: They might be false-positive.\n" = true := by decide
  have falsePositive : Report.startsIn ['N'] noteFalsePositive = true :=
    Report.startsIn_append (Report.startsIn_append (Report.startsIn_append
      (Report.startsIn_append start)))
  unfold buildNote
  cases options.allTargets with
  | false =>
    exact Report.startsIn_append (Report.startsIn_append (Report.startsIn_append targets))
  | true =>
    rw [if_pos rfl, String.empty_append]
    split
    · exact Report.startsIn_append nonLibrary
    · exact falsePositive

end Outcome

namespace Report

/-- Whether an outcome is that of a failing run whose identities and names hold no line feed, and
whose packages have names and versions without spaces. -/
structure IsDrawable (o : Outcome) : Prop where
  aggregated : o.IsAggregated
  failing : o.success = .bool false
  ids : ∀ e ∈ o.unused, '\n' ∉ e.1.text.toList
  names : ∀ e ∈ o.unused, ∀ k, ∀ v ∈ e.2.names k, '\n' ∉ v.plainText.toList
  spaceless : ∀ e ∈ o.unused, e.1.IsSpaceless

/-- Whether two outcomes have the same packages, list the same names for each of them and have the
same note. -/
structure SameFindings (o o' : Outcome) : Prop where
  entries : (o.unused.map fun e => (e.1, e.2.names)) = o'.unused.map fun e => (e.1, e.2.names)
  reported : ∀ p k, o.reported p k = o'.reported p k
  note : o.note = o'.note

theorem IsDrawable.exists_human {o : Outcome} (h : IsDrawable o) : ∃ text note,
    human o = .ok text ∧ o.note = .text note ∧ startsIn ['N'] note = true ∧
    text.toList = ((headerLine :: o.unused.flatMap packageLines).flatMap fun l =>
      l.toList ++ ['\n']) ++ note.toList := by
  have settled := h.aggregated.isSettled
  obtain ⟨options, tables, note⟩ := settled.note h.failing
  have run : human o = .ok (String.intercalate "\n" (headerLine :: o.unused.flatMap packageLines) ++
      "\n" ++ Outcome.buildNote options tables) := by
    simp only [human, h.failing, settled.sorted, note]
    rfl
  refine ⟨_, _, run, note, Outcome.startsIn_buildNote options tables, ?_⟩
  rw [String.toList_append, toList_intercalate_lines]

/-- No line of the tree starts like the note. -/
theorem IsDrawable.lines {o : Outcome} (h : IsDrawable o) :
    ∀ l ∈ headerLine :: o.unused.flatMap packageLines,
      '\n' ∉ l.toList ∧ startsIn ['N'] l = false := by
  rw [List.forall_mem_cons]
  refine ⟨by decide, fun l hl => ?_⟩
  obtain ⟨e, he, hl⟩ := List.mem_flatMap.1 hl
  rcases List.mem_cons.1 hl with rfl | hl
  · have head := (isHeaded_packageGroup e).head
    exact ⟨by simpa using h.ids e he, startsIn_eq_false head (by simp)⟩
  · exact ⟨lineFeed_notMem_treeLines (h.names e he) hl, startsIn_treeLines hl (by simp)⟩

/-- The report for readers tells apart any two failing runs with different findings or notes. -/
theorem sameFindings_of_human {o o' : Outcome} (ho : IsDrawable o) (ho' : IsDrawable o') :
    ∃ text text', human o = .ok text ∧ human o' = .ok text' ∧
      (text = text' → SameFindings o o') := by
  obtain ⟨text, note, run, hnote, first, chars⟩ := ho.exists_human
  obtain ⟨text', note', run', hnote', first', chars'⟩ := ho'.exists_human
  refine ⟨text, text', run, run', fun same => ?_⟩
  rw [same, chars'] at chars
  obtain ⟨lines, notes⟩ := endedLines_inj (by decide) ho.lines ho'.lines first first' chars.symm
  have settled := ho.aggregated.isSettled
  have settled' := ho'.aggregated.isSettled
  have entries : (o.unused.map fun e => (e.1, e.2.names)) =
      o'.unused.map fun e => (e.1, e.2.names) := by
    refine entries_eq_of_packageLines_eq (List.forall_mem_append.2 ⟨?_, ?_⟩)
      (List.forall_mem_append.2 ⟨ho.spaceless, ho'.spaceless⟩)
      (List.forall_mem_append.2 ⟨?_, ?_⟩) (List.cons.inj lines).2
    · exact fun e he => (settled.ids e he).isTextual
    · exact fun e he => (settled'.ids e he).isTextual
    · exact fun e he k v hv => (settled.names e he k v hv).isText
    · exact fun e he k v hv => (settled'.names e he k v hv).isText
  refine ⟨entries, Outcome.reported_congr entries, ?_⟩
  rw [hnote, hnote', notes]

/-- Names that look like parts of the tree. -/
def glyphNames : List String := ["`a b`", "│    └─── \"c", "\"└─── build-dependencies"]

def glyphTables : DependencyNames :=
  ⟨⟨.text "app", .text "1.0.0", .text "registry"⟩,
    ⟨[], [], [.text "`a b`", .text "│    └─── \"c"]⟩, .empty,
    ⟨[], [], [.text "\"└─── build-dependencies"]⟩⟩

def glyphGraph : Graph := ⟨[⟨glyphTables.package, Path.ofText "/Cargo.toml", none, .empty⟩], [], []⟩

/-- The run over these tables where some normal dependencies are ignored. -/
def glyphRun (ignored : List String) : Logged Outcome :=
  Outcome.aggregate glyphGraph [glyphTables] .empty {} fun _ => .answer (some ⟨ignored, [], []⟩)

theorem exists_glyphName {k : DependencyKind} {v : Value}
    (h : v ∈ (glyphTables.table k).declared) : ∃ s ∈ glyphNames, v = .text s := by
  have each : ∀ k ∈ DependencyKind.all, ∀ v ∈ (glyphTables.table k).declared,
      v ∈ glyphNames.map .text := by decide
  obtain ⟨s, hs, rfl⟩ := List.mem_map.1 (each k (DependencyKind.mem_all k) v h)
  exact ⟨s, hs, rfl⟩

theorem isCoded_glyphTables : glyphTables.IsCoded := by
  have plain : ∀ s ∈ ["app", "1.0.0", "registry"] ++ glyphNames,
      (s.toList.all fun c => !Text.keepsHalfPair c && c ≠ Text.mark) = true := by decide
  have coded {s : String} (hs : s ∈ ["app", "1.0.0", "registry"] ++ glyphNames) :
      (Value.text s).IsCoded := Value.isCoded_of_plain (plain s hs)
  refine ⟨⟨coded (by decide), coded (by decide), coded (by decide)⟩, fun k v hv => ?_⟩
  obtain ⟨s, hs, rfl⟩ := exists_glyphName hv
  exact coded (List.mem_append_right _ hs)

theorem mem_reported_glyphRun {ignored : List String} {o : Outcome}
    (ho : (glyphRun ignored).result = .ok o) (k : DependencyKind) (v : Value) :
    v ∈ o.reported glyphTables.package k ↔ v ∈ (glyphTables.table k).declared ∧
      IgnoreTable.contains ⟨ignored, [], []⟩ k v = false := by
  rw [Outcome.mem_reported_of_aggregate ho (List.pairwise_singleton _ _)]
  have ignores : glyphGraph.Ignores (fun _ => .answer (some ⟨ignored, [], []⟩))
      glyphTables.package k v ↔ IgnoreTable.contains ⟨ignored, [], []⟩ k v = true := by
    constructor
    · rintro ⟨p, t, -, ht, held⟩
      cases ht
      exact held
    · exact fun held => ⟨_, _, rfl, rfl, held⟩
  have self : glyphTables.package.same glyphTables.package = true := by decide
  simp [UsedDependencies.contains_empty, ignores, self]

theorem isDrawable_glyphRun {ignored : List String} {o : Outcome}
    (ho : (glyphRun ignored).result = .ok o) : IsDrawable o := by
  have coded : ∀ n ∈ [glyphTables], n.IsCoded :=
    List.forall_mem_singleton.2 isCoded_glyphTables
  have apart : [glyphTables].Pairwise fun n n' => n.package.same n'.package = false :=
    List.pairwise_singleton _ _
  have tables {e : PackageId × UnusedEntry} (he : e ∈ o.unused) : e.1 = glyphTables.package ∧
      ∀ k, ∀ v ∈ e.2.names k, v ∈ (glyphTables.table k).declared := by
    obtain ⟨n, hn, heq, declared⟩ := Outcome.exists_tables_of_aggregate ho he
    cases List.mem_singleton.1 hn
    exact ⟨heq, declared⟩
  refine ⟨⟨_, _, _, _, _, apart, coded, ho⟩, ?_, fun e he => ?_, fun e he k v hv => ?_,
    fun e he => ?_⟩
  · have keyed : ∀ n ∈ [glyphTables], n.package.same n.package = true := by decide
    obtain ⟨b, success, nothing⟩ := Outcome.success_of_aggregate ho apart keyed
    rw [success, Value.bool.injEq, Bool.eq_false_iff]
    intro hb
    -- The build dependency is never ignored.
    refine nothing.1 hb glyphTables.package .build (.text "\"└─── build-dependencies") ?_
    exact (mem_reported_glyphRun ho _ _).2 ⟨by decide, rfl⟩
  · rw [(tables he).1]
    decide
  · obtain ⟨s, hs, rfl⟩ := exists_glyphName ((tables he).2 k v hv)
    have plain : ∀ s ∈ glyphNames, '\n' ∉ s.toList := by decide
    exact plain s hs
  · rw [(tables he).1]
    exact ⟨by decide, by decide⟩

theorem exists_glyphRun (ignored : List String) : ∃ o, (glyphRun ignored).result = .ok o := by
  have texts : ∀ n ∈ [glyphTables], n.IsTextual :=
    List.forall_mem_singleton.2 isCoded_glyphTables.isTextual
  have known : ∀ n ∈ [glyphTables], glyphGraph.Knows n.package :=
    List.forall_mem_singleton.2 ⟨_, List.mem_singleton.2 rfl, by decide⟩
  exact Outcome.aggregate_isOk texts known fun _ _ _ _ => ⟨_, rfl⟩

/-- Ignoring one of these names changes the report. -/
theorem sameFindings_of_human_glyphRun : ∃ o o', (glyphRun []).result = .ok o ∧
    (glyphRun ["`a b`"]).result = .ok o' ∧ IsDrawable o ∧ IsDrawable o' ∧
    ∃ text text', human o = .ok text ∧ human o' = .ok text' ∧ text ≠ text' := by
  obtain ⟨o, ho⟩ := exists_glyphRun []
  obtain ⟨o', ho'⟩ := exists_glyphRun ["`a b`"]
  have drawn := isDrawable_glyphRun ho
  have drawn' := isDrawable_glyphRun ho'
  obtain ⟨text, text', run, run', same⟩ := sameFindings_of_human drawn drawn'
  refine ⟨o, o', ho, ho', drawn, drawn', text, text', run, run', fun texts => ?_⟩
  have listed := (mem_reported_glyphRun ho .normal (.text "`a b`")).2 ⟨by decide, by decide⟩
  rw [(same texts).reported] at listed
  have ignored := ((mem_reported_glyphRun ho' _ _).1 listed).2
  revert ignored
  decide

end Report

end UnusedDeps
