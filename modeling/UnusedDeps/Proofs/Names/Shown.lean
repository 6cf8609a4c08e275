import UnusedDeps.Proofs.Names.Collisions
import UnusedDeps.Proofs.Text.Lines

/-!
# What the warning shows of the collisions

A warning has one branch for a group of kinds, and a branch one leaf for a name. The
collisions of a group are gathered by name, library after library, so a name that
collides under several libraries is shown with the last of them only, and a library
whose names all collide again later is not shown at all. Main statement:
`AmbiguityReport.showsLast_text`.
-/

namespace UnusedDeps

/-- Whether the libraries of a table are distinct and the names behind them texts. -/
structure NameTable.IsProper (t : NameTable) : Prop where
  libraries : (t.byLibrary.map (·.1)).Nodup
  names : ∀ e ∈ t.byLibrary, ∀ v ∈ e.2, v.IsText

theorem NameTable.collides_iff_mem {t : NameTable} (ht : t.IsProper) {l : String} {v : Value} :
    t.Collides l v ↔ ∃ vs, (l, vs) ∈ t.byLibrary ∧ v ∈ vs ∧ 1 < vs.length := by
  constructor
  · rintro ⟨hv, long⟩
    cases hfound : Mapping.get? t.byLibrary l with
    | none => simp [libraryNames, hfound] at hv
    | some vs =>
      have behind : t.libraryNames l = vs := by rw [libraryNames, hfound, Option.getD_some]
      rw [behind] at hv long
      obtain ⟨e, he, rfl⟩ := Option.map_eq_some_iff.1 hfound
      have key : e.1 = l := by simpa using List.find?_some he
      exact ⟨e.2, key ▸ List.mem_of_find?_eq_some he, hv, long⟩
  · rintro ⟨vs, he, hv, long⟩
    have behind : t.libraryNames l = vs := by
      rw [libraryNames, Mapping.get?_of_mem ht.libraries he, Option.getD_some]
    exact ⟨behind ▸ hv, behind ▸ long⟩

namespace DependencyNames

/-- The tables whose collisions stand in one branch with those of a kind. -/
def groupTables (n : DependencyNames) : DependencyKind → List NameTable
  | .build => [n.build]
  | _ => [n.normal, n.development]

/-- The libraries of a group with several names behind them, table after table. -/
def shared (n : DependencyNames) (k : DependencyKind) : List (String × List Value) :=
  (n.groupTables k).flatMap fun t => t.byLibrary.filter fun e => 1 < e.2.length

/-- The last library of a group under which a name collides. -/
def lastShared? (n : DependencyNames) (k : DependencyKind) (v : Value) : Option String :=
  ((n.shared k).filter fun e => v ∈ e.2).getLast?.map (·.1)

theorem table_mem_groupTables (n : DependencyNames) (k : DependencyKind) :
    n.table k ∈ n.groupTables k := by
  cases k <;> simp [table, groupTables]

theorem isSome_lastShared? {n : DependencyNames} {k : DependencyKind} (hn : (n.table k).IsProper)
    {l : String} {v : Value} (h : (n.table k).Collides l v) :
    ∃ last, n.lastShared? k v = some last := by
  obtain ⟨vs, he, hv, long⟩ := (NameTable.collides_iff_mem hn).1 h
  have shared : (l, vs) ∈ n.shared k := by
    refine List.mem_flatMap.2 ⟨_, n.table_mem_groupTables k, List.mem_filter.2 ⟨he, ?_⟩⟩
    exact decide_eq_true long
  have behind : (l, vs) ∈ (n.shared k).filter fun e => v ∈ e.2 :=
    List.mem_filter.2 ⟨shared, decide_eq_true hv⟩
  have found := List.getLast?_eq_some_getLast (List.ne_nil_of_mem behind)
  exact ⟨_, by rw [lastShared?, found]; rfl⟩

/-- Whether the names and libraries that collide in a group hold no quotes. -/
def IsUnquoted (n : DependencyNames) (k : DependencyKind) : Prop :=
  ∀ e ∈ n.shared k, '"' ∉ e.1.toList ∧ ∀ v ∈ e.2, '"' ∉ v.plainText.toList

theorem IsUnquoted.of_lastShared? {n : DependencyNames} {k : DependencyKind}
    (h : n.IsUnquoted k) {v : Value} {l : String} (last : n.lastShared? k v = some l) :
    '"' ∉ l.toList ∧ '"' ∉ v.plainText.toList := by
  obtain ⟨e, he, rfl⟩ := Option.map_eq_some_iff.1 last
  obtain ⟨shared, behind⟩ := List.mem_filter.1 (List.mem_of_getLast? he)
  exact ⟨(h e shared).1, (h e shared).2 v (of_decide_eq_true behind)⟩

end DependencyNames

namespace AmbiguityReport

/-! ### The mapping of a group -/

/-- The libraries of a list, each set for all of its names. -/
def setShared (found : List (Value × String)) (libraries : List (String × List Value)) :
    List (Value × String) :=
  libraries.foldl (fun found e => e.2.foldl (fun m n => setByKey n e.1 m) found) found

theorem collisions_eq (found : List (Value × String)) (t : NameTable) :
    collisions found t = setShared found (t.byLibrary.filter fun e => 1 < e.2.length) := by
  rw [setShared, List.foldl_filter, collisions]
  simp only [decide_eq_true_eq]

theorem forKind_ofNames (n : DependencyNames) (k : DependencyKind) :
    (ofNames n).forKind k = setShared [] (n.shared k) := by
  cases k <;>
    simp [forKind, ofNames, collisions_eq, DependencyNames.shared, DependencyNames.groupTables,
      setShared]

theorem getByKey?_setAll {vs : List Value} (texts : ∀ v ∈ vs, v.IsText) (l : String)
    (found : List (Value × String)) {v : Value} (hv : v.IsText) :
    getByKey? (vs.foldl (fun m n => setByKey n l m) found) v =
      if v ∈ vs then some l else getByKey? found v := by
  induction vs generalizing found with
  | nil => simp
  | cons w vs ih =>
    rw [List.forall_mem_cons] at texts
    rw [List.foldl_cons, ih texts.2, getByKey?_setByKey]
    simp only [Value.sameKey_iff_eq texts.1 hv, List.mem_cons]
    by_cases later : v ∈ vs
    · simp [later]
    · simp [later, eq_comm]

/-- What is set last for a name stays. -/
theorem getByKey?_setShared {libraries : List (String × List Value)}
    (texts : ∀ e ∈ libraries, ∀ v ∈ e.2, v.IsText) {v : Value} (hv : v.IsText) :
    getByKey? (setShared [] libraries) v =
      (libraries.filter fun e => v ∈ e.2).getLast?.map (·.1) := by
  induction libraries using List.reverseRecOn with
  | nil => rfl
  | append_singleton libraries e ih =>
    have before := ih fun f hf => texts f (List.mem_append_left _ hf)
    have step : setShared [] (libraries ++ [e]) =
        e.2.foldl (fun m n => setByKey n e.1 m) (setShared [] libraries) := by
      rw [setShared, List.foldl_append, List.foldl_cons, List.foldl_nil, setShared]
    rw [step, getByKey?_setAll (texts e (List.mem_append_right _ List.mem_cons_self)) _ _ hv,
      before, List.filter_append]
    by_cases behind : v ∈ e.2
    · simp [behind]
    · simp [behind]

theorem mem_iff_getByKey? {found : List (Value × String)} (texts : ∀ e ∈ found, e.1.IsText)
    (distinct : (found.map (·.1)).Nodup) {v : Value} (hv : v.IsText) (l : String) :
    (v, l) ∈ found ↔ getByKey? found v = some l := by
  induction found with
  | nil => simp [getByKey?]
  | cons e found ih =>
    rw [List.forall_mem_cons] at texts
    rw [List.map_cons, List.nodup_cons] at distinct
    by_cases same : e.1.sameKey v = true
    · have key := (Value.sameKey_iff_eq texts.1 hv).1 same
      have fresh : (v, l) ∉ found := fun h => distinct.1 (key ▸ List.mem_map_of_mem h)
      have value : getByKey? (e :: found) v = some e.2 := by simp [getByKey?, same]
      rw [value, List.mem_cons, or_iff_left fresh, Prod.ext_iff, key, Option.some.injEq]
      exact ⟨fun h => h.2.symm, fun h => ⟨rfl, h.symm⟩⟩
    · have other : (v, l) ≠ e := fun h => same <| by
        rw [← h]
        exact (Value.sameKey_iff_eq hv hv).2 rfl
      have value : getByKey? (e :: found) v = getByKey? found v := by
        simp [getByKey?, same]
      rw [value, List.mem_cons, or_iff_right other, ih texts.2 distinct.2]

section

variable {n : DependencyNames}

theorem shared_isText (hn : ∀ k, (n.table k).IsProper) (k : DependencyKind) :
    ∀ e ∈ n.shared k, ∀ v ∈ e.2, v.IsText := by
  intro e he
  obtain ⟨t, ht, he⟩ := List.mem_flatMap.1 he
  have proper : t.IsProper := by
    cases k <;> simp only [DependencyNames.groupTables, List.mem_cons, List.not_mem_nil,
      or_false] at ht
    · exact ht.elim (· ▸ hn .normal) (· ▸ hn .development)
    · exact ht.elim (· ▸ hn .normal) (· ▸ hn .development)
    · exact ht ▸ hn .build
  exact proper.names e (List.mem_filter.1 he).1

theorem exists_lists (hn : ∀ k, (n.table k).IsProper) (k : DependencyKind) :
    ∃ collide, Lists ((ofNames n).forKind k) collide := by
  have normal := lists_nil.addEntries (hn .normal).names
  have normalDev := normal.addEntries (hn .development).names
  have build := lists_nil.addEntries (hn .build).names
  cases k with
  | build => exact ⟨_, build⟩
  | _ => exact ⟨_, normalDev⟩

/-- A group gives a name the last library under which it collides. -/
theorem mem_forKind_iff (hn : ∀ k, (n.table k).IsProper) (k : DependencyKind) {v : Value}
    (hv : v.IsText) (l : String) :
    (v, l) ∈ (ofNames n).forKind k ↔ n.lastShared? k v = some l := by
  obtain ⟨_, lists⟩ := exists_lists hn k
  rw [mem_iff_getByKey? lists.texts lists.distinct hv, forKind_ofNames,
    getByKey?_setShared (shared_isText hn k) hv, DependencyNames.lastShared?]

end

/-! ### Lines of the warning -/

/-- How a leaf ends that shows a name with a library. -/
def leafEnd (name library : String) : String := "\"" ++ name ++ "\" → \"" ++ library ++ "\""

/-- Whether a line among some ends with a name and a library. -/
def Shows (lines : List String) (name library : String) : Prop :=
  ∃ line ∈ lines, (leafEnd name library).toList <:+ line.toList

instance (lines : List String) (name library : String) : Decidable (Shows lines name library) :=
  inferInstanceAs (Decidable (∃ line ∈ lines, _))

/-- What stands below the joint of the branch of a kind, and the joint. -/
def rails (r : AmbiguityReport) (k : DependencyKind) : String × String :=
  if k = .build ∨ r.build.isEmpty then (" ", "└") else ("│", "├")

def groupLabel (k : DependencyKind) : String :=
  if k = .build then "build-dependencies" else "(dev-)dependencies"

/-- The lines of the branch in which the collisions of a kind stand. -/
def branch (r : AmbiguityReport) (k : DependencyKind) : Except Fault (List String) :=
  branchLines (r.rails k).1 (r.rails k).2 (groupLabel k) (r.forKind k)

theorem branch_development (r : AmbiguityReport) : r.branch .development = r.branch .normal := by
  simp [branch, rails, groupLabel, forKind]

theorem treeLines_eq (r : AmbiguityReport) :
    r.treeLines = do return (← r.branch .normal) ++ (← r.branch .build) := by
  unfold treeLines
  cases h : r.build.isEmpty <;> simp [branch, rails, groupLabel, forKind, h]

theorem leafLine_eq (start name library : String) :
    start ++ "─── \"" ++ name ++ "\" → \"" ++ library ++ "\"" =
      start ++ "─── " ++ leafEnd name library := by
  have joint : "─── \"" = "─── " ++ "\"" := rfl
  simp only [leafEnd, joint, String.append_assoc]

theorem shows_leafLines (edge : String) {entries : List (Value × String)} {name library : String}
    (h : (.text name, library) ∈ entries) : Shows (leafLines edge entries) name library := by
  induction entries with
  | nil => cases h
  | cons e entries ih =>
    rcases List.mem_cons.1 h with rfl | h
    · refine ⟨_, List.mem_cons_self, ?_⟩
      rw [leafLine_eq, String.toList_append]
      exact List.suffix_append _ _
    · obtain ⟨line, hline, ends⟩ := ih h
      exact ⟨line, List.mem_cons_of_mem _ hline, ends⟩

theorem shows_branchLines {edge joint label : String} {names : List (Value × String)}
    {lines : List String} (h : branchLines edge joint label names = .ok lines)
    {name library : String} (listed : (.text name, library) ∈ names) :
    Shows lines name library := by
  unfold branchLines at h
  rw [if_neg (by simpa using List.ne_nil_of_mem listed)] at h
  obtain ⟨sorted, hsorted, h⟩ := bind_eq_ok.1 h
  cases pure_eq_ok.1 h
  have kept := (mem_sortByKeys? (orWrongType_eq_ok.1 hsorted) _).2 listed
  obtain ⟨line, hline, ends⟩ := shows_leafLines edge kept
  exact ⟨line, List.mem_cons_of_mem _ hline, ends⟩

theorem text_eq_ok {r : AmbiguityReport} {normalDev build : List String}
    (hnormal : r.branch .normal = .ok normalDev) (hbuild : r.branch .build = .ok build) :
    r.text = .ok (String.intercalate "\n"
      (heading :: ("`" ++ r.package.text ++ "`") :: (normalDev ++ build))) := by
  rw [text, treeLines_eq, hnormal, hbuild]
  rfl

/-! ### Lines read back -/

/-- Names and libraries without quotes are known from the end of their line. -/
theorem leafEnd_inj {as bs : List Char} {name library name' library' : String}
    (hname : '"' ∉ name.toList) (hlibrary : '"' ∉ library.toList)
    (hname' : '"' ∉ name'.toList) (hlibrary' : '"' ∉ library'.toList)
    (h : as ++ (leafEnd name library).toList = bs ++ (leafEnd name' library').toList) :
    name = name' ∧ library = library' := by
  have quote : "\"".toList.reverse = ['"'] := by decide
  have arrow : "\" → \"".toList.reverse = '"' :: [' ', '→', ' ', '"'] := by decide
  have backwards := congrArg List.reverse h
  simp only [leafEnd, String.toList_append, List.reverse_append, List.append_assoc, quote, arrow,
    List.cons_append, List.nil_append, List.cons.injEq, true_and] at backwards
  -- From the end on: the library, a quote, the arrow, a quote, the name, a quote.
  obtain ⟨hl, backwards⟩ := Text.append_cons_inj (by simpa using hlibrary)
    (by simpa using hlibrary') backwards
  simp only [List.cons.injEq, true_and] at backwards
  obtain ⟨hn, -⟩ := Text.append_cons_inj (by simpa using hname) (by simpa using hname') backwards
  exact ⟨String.toList_inj.1 (List.reverse_injective hn),
    String.toList_inj.1 (List.reverse_injective hl)⟩

theorem getLast?_leafEnd (cs : List Char) (name library : String) :
    (cs ++ (leafEnd name library).toList).getLast? = some '"' := by
  simp only [leafEnd, String.toList_append, ← List.append_assoc]
  exact List.getLast?_concat

theorem getLast?_label (start : String) (k : DependencyKind) :
    (start ++ groupLabel k).toList.getLast? = some 's' := by
  have label : (groupLabel k).toList.getLast? = some 's' := by cases k <;> decide
  rw [String.toList_append, List.getLast?_append, label, Option.some_or]

theorem mem_of_shows_leafLines {edge : String} {entries : List (Value × String)}
    {name library : String} (h : Shows (leafLines edge entries) name library) :
    ∃ e ∈ entries, ∃ front back, front ++ (leafEnd name library).toList =
      back ++ (leafEnd e.1.plainText e.2).toList := by
  induction entries with
  | nil =>
    obtain ⟨_, hline, -⟩ := h
    cases hline
  | cons e entries ih =>
    obtain ⟨line, hline, front, ends⟩ := h
    rcases List.mem_cons.1 hline with rfl | hline
    · rw [leafLine_eq, String.toList_append] at ends
      exact ⟨e, List.mem_cons_self, front, _, ends⟩
    · obtain ⟨f, hf, found⟩ := ih ⟨line, hline, front, ends⟩
      exact ⟨f, List.mem_cons_of_mem e hf, found⟩

theorem mem_of_shows_branchLines {edge joint : String} {k : DependencyKind}
    {names : List (Value × String)} {lines : List String}
    (hlines : branchLines edge joint (groupLabel k) names = .ok lines) {name library : String}
    (h : Shows lines name library) :
    ∃ e ∈ names, ∃ front back, front ++ (leafEnd name library).toList =
      back ++ (leafEnd e.1.plainText e.2).toList := by
  unfold branchLines at hlines
  split at hlines
  · cases hlines
    obtain ⟨_, hline, -⟩ := h
    cases hline
  · obtain ⟨sorted, hsorted, hlines⟩ := bind_eq_ok.1 hlines
    cases pure_eq_ok.1 hlines
    obtain ⟨line, hline, front, ends⟩ := h
    rcases List.mem_cons.1 hline with rfl | hline
    · -- The line with the label of the branch ends in a letter.
      have last := congrArg List.getLast? ends
      rw [getLast?_leafEnd, getLast?_label] at last
      cases last
    · obtain ⟨e, he, found⟩ := mem_of_shows_leafLines ⟨line, hline, front, ends⟩
      exact ⟨e, (mem_sortByKeys? (orWrongType_eq_ok.1 hsorted) e).1 he, found⟩

/-! ### Names that collide more than once -/

/-- Whether lines show each name that collides in the group of a kind with the last library under
which it does. -/
structure ShowsLast (n : DependencyNames) (k : DependencyKind) (lines : List String) : Prop where
  shown : ∀ l name, (n.table k).Collides l (.text name) →
    ∃ last, n.lastShared? k (.text name) = some last ∧ Shows lines name last
  entries : ∀ l name,
    (.text name, l) ∈ (ofNames n).forKind k ↔ n.lastShared? k (.text name) = some l
  only : n.IsUnquoted k → ∀ l name, '"' ∉ l.toList → '"' ∉ name.toList →
    (Shows lines name l ↔ n.lastShared? k (.text name) = some l)

theorem showsLast_branch {n : DependencyNames} (hn : ∀ k, (n.table k).IsProper)
    {k : DependencyKind} {lines : List String} (h : (ofNames n).branch k = .ok lines) :
    ShowsLast n k lines := by
  have listed (l name : String) := mem_forKind_iff hn k (Value.isText_text name) l
  have shows_last {l name : String} (last : n.lastShared? k (.text name) = some l) :
      Shows lines name l :=
    shows_branchLines h ((listed l name).2 last)
  refine ⟨fun l name collides => ?_, listed, fun unquoted l name hl hname => ?_⟩
  · obtain ⟨last, hlast⟩ := DependencyNames.isSome_lastShared? (hn k) collides
    exact ⟨last, hlast, shows_last hlast⟩
  · refine ⟨fun shows => ?_, shows_last⟩
    obtain ⟨⟨v, m⟩, he, front, back, ends⟩ := mem_of_shows_branchLines h shows
    obtain ⟨_, lists⟩ := exists_lists hn k
    obtain ⟨s, rfl⟩ := lists.texts _ he
    have last := (listed m s).1 he
    obtain ⟨hm, hs⟩ := unquoted.of_lastShared? last
    obtain ⟨rfl, rfl⟩ := leafEnd_inj hname hl hs hm ends
    exact last

/-- The warning on any tables shows every name that collides in a group, each with the last library
under which it does. -/
theorem showsLast_text {n : DependencyNames} (hn : ∀ k, (n.table k).IsProper) :
    ∃ normalDev build, (ofNames n).text = .ok (String.intercalate "\n"
        (heading :: ("`" ++ n.package.text ++ "`") :: (normalDev ++ build))) ∧
      ShowsLast n .normal normalDev ∧ ShowsLast n .development normalDev ∧
      ShowsLast n .build build := by
  have texts : ∀ k, ∀ e ∈ (ofNames n).forKind k, e.1.IsText := fun k => by
    obtain ⟨_, lists⟩ := exists_lists hn k
    exact lists.texts
  obtain ⟨normalDev, hnormal⟩ : ∃ lines, (ofNames n).branch .normal = .ok lines :=
    branchLines_isOk _ _ _ (texts .normal)
  obtain ⟨build, hbuild⟩ : ∃ lines, (ofNames n).branch .build = .ok lines :=
    branchLines_isOk _ _ _ (texts .build)
  exact ⟨normalDev, build, text_eq_ok hnormal hbuild, showsLast_branch hn hnormal,
    showsLast_branch hn ((branch_development _).trans hnormal), showsLast_branch hn hbuild⟩

/-- The names `a` and `b`, each declared for two targets: on the one their libraries are both `x`, on
the other both `y`. -/
def sharedTwice : List DeclaredName :=
  [⟨.text "a", .text "a", some (.text "x")⟩, ⟨.text "b", .text "b", some (.text "x")⟩,
    ⟨.text "a", .text "a2", some (.text "y")⟩, ⟨.text "b", .text "b2", some (.text "y")⟩]

/-- The table of `sharedTwice`. -/
def sharedTwiceTable : NameTable where
  byAlias := [(.text "a", .text "a"), (.text "b", .text "b"), (.text "a2", .text "a"),
    (.text "b2", .text "b")]
  byLibrary := [("x", [.text "a", .text "b"]), ("y", [.text "a", .text "b"])]
  nonLibrary := []

def sharedTwiceNames : DependencyNames :=
  ⟨⟨.text "app", .text "0.1.0", .text "path+file:///ws/app"⟩, sharedTwiceTable, .empty, .empty⟩

theorem isProper_sharedTwiceNames (k : DependencyKind) : (sharedTwiceNames.table k).IsProper := by
  have empty : NameTable.empty.IsProper := ⟨by decide, fun _ h => absurd h List.not_mem_nil⟩
  have twice : sharedTwiceTable.IsProper := by
    refine ⟨by decide, ?_⟩
    simp [sharedTwiceTable, Value.IsText]
  cases k with
  | normal => exact twice
  | development => exact empty
  | build => exact empty

theorem showsLast_text_sharedTwice : (∀ k, (sharedTwiceNames.table k).IsProper) ∧
    ∃ normalDev build, (ofNames sharedTwiceNames).text = .ok (String.intercalate "\n"
        (heading :: ("`" ++ sharedTwiceNames.package.text ++ "`") :: (normalDev ++ build))) ∧
      ShowsLast sharedTwiceNames .normal normalDev ∧
      ShowsLast sharedTwiceNames .development normalDev ∧
      ShowsLast sharedTwiceNames .build build ∧
      sharedTwiceTable.Collides "y" (.text "a") ∧
      sharedTwiceNames.lastShared? .normal (.text "a") = some "y" := by
  obtain ⟨normalDev, build, written, normal, development, builds⟩ :=
    showsLast_text isProper_sharedTwiceNames
  exact ⟨isProper_sharedTwiceNames, normalDev, build, written, normal, development, builds,
    by unfold NameTable.Collides; decide, by decide⟩

/-- Neither of two names that collide under `x` is shown with `x` when both collide again. -/
theorem not_shows_sharedTwice : NameTable.ofNames sharedTwice = .ok sharedTwiceTable ∧
    sharedTwiceTable.Collides "x" (.text "a") ∧ sharedTwiceTable.Collides "x" (.text "b") ∧
      ∃ lines, (ofNames sharedTwiceNames).branch .normal = .ok lines ∧
        ¬Shows lines "a" "x" ∧ ¬Shows lines "b" "x" := by
  obtain ⟨lines, hlines⟩ : ∃ lines, (ofNames sharedTwiceNames).branch .normal = .ok lines := by
    obtain ⟨_, lists⟩ := exists_lists isProper_sharedTwiceNames .normal
    exact branchLines_isOk _ _ _ lists.texts
  have unquoted : sharedTwiceNames.IsUnquoted .normal := by
    unfold DependencyNames.IsUnquoted
    decide
  have only := (showsLast_branch isProper_sharedTwiceNames hlines).only unquoted "x"
  refine ⟨rfl, by unfold NameTable.Collides; decide, by unfold NameTable.Collides; decide, lines,
    hlines, ?_, ?_⟩
  · rw [only "a" (by decide) (by decide)]
    decide
  · rw [only "b" (by decide) (by decide)]
    decide

end AmbiguityReport

end UnusedDeps
