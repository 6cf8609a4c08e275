import Mathlib.Data.List.Basic
import UnusedDeps.Files.Tree
import UnusedDeps.Proofs.Path
import UnusedDeps.Proofs.Steps

/-!
# What one more file changes

A file that is made where nothing was hides nothing: whatever stood at another
place still stands there, and every path that led somewhere leads there still.
Main statements: `node?_put_of_some`, `lookup_put` and `children_put`.
-/

namespace UnusedDeps

namespace FileTree

variable {t : FileTree} {place q r : Place} {node x : FileNode}

/-! ### Places -/

/-- Whether a place leads up only, from where a walk starts. -/
theorem all_up_child {name : String} (h : Text.hostName name ≠ "..") :
    (place.child name).parts.all (· = "..") = false := by
  simp [Place.child, h]

theorem entry_ne_of_node?_eq_none (h : t.node? q = none) {e : Place × FileNode}
    (he : e ∈ t.entries) : ¬(e.1.rooted = q.rooted ∧ q.parts <+: e.1.parts) := by
  intro below
  unfold node? at h
  split at h
  · cases h
  split at h
  · cases h
  split at h
  · cases h
  · rename_i bare
    refine bare (List.any_eq_true.2 ⟨e, he, ?_⟩)
    rw [Bool.and_eq_true, decide_eq_true_eq, List.isPrefixOf_iff_prefix]
    exact below

theorem put_of_node?_eq_none (h : t.node? q = none) :
    t.put q node = ⟨(q, node) :: t.entries⟩ := by
  have other : ∀ e ∈ t.entries, decide (e.1 ≠ q) = true := fun e he => by
    rw [decide_eq_true_eq]
    rintro rfl
    exact entry_ne_of_node?_eq_none h he ⟨rfl, List.prefix_refl _⟩
  rw [put, List.filter_eq_self.2 other]

theorem node?_put_self (up : q.parts.all (· = "..") = false) :
    (t.put q node).node? q = some node := by
  rw [node?, up, if_neg (by simp)]
  simp [put]

/-- What stands somewhere still stands there when a file is made where nothing was. -/
theorem node?_put_of_some (h : t.node? q = none) (hr : t.node? r = some x) :
    (t.put q node).node? r = some x := by
  have hne : r ≠ q := by
    rintro rfl
    rw [h] at hr
    cases hr
  rw [put_of_node?_eq_none h]
  unfold node? at hr ⊢
  split at hr
  · rw [if_pos ‹_›]
    exact hr
  rw [if_neg ‹_›, List.lookup_cons, beq_false_of_ne hne]
  split at hr
  · rename_i hx
    simp only [hx]
    exact hr
  · rename_i hx
    split at hr
    · rename_i below
      simp only [hx, List.any_cons, below, Bool.or_true, if_true]
      exact hr
    · cases hr

/-! ### Walks -/

theorem walk_append (xs ys : List String) :
    t.walk place (xs ++ ys) = (t.walk place xs >>= fun q => t.walk q ys) := by
  induction xs generalizing place with
  | nil => rfl
  | cons p xs ih =>
    rw [List.cons_append, walk, walk]
    split
    · rfl
    · split
      · exact ih
      split
      · rfl
      split
      · rfl
      · exact ih
    · rfl

theorem walk_put (h : t.node? q = none) {parts : List String} (hw : t.walk place parts = .ok r) :
    (t.put q node).walk place parts = .ok r := by
  induction parts generalizing place with
  | nil => exact hw
  | cons p parts ih =>
    rw [walk] at hw
    split at hw
    · cases hw
    · rename_i here
      rw [walk, node?_put_of_some h here]
      split at hw
      · rw [if_pos ‹_›]
        exact ih hw
      rw [if_neg ‹_›]
      split at hw
      · cases hw
      rw [if_neg ‹_›]
      split at hw
      · cases hw
      · rename_i there
        obtain ⟨y, hy⟩ := Option.ne_none_iff_exists'.1 (by simpa using there)
        rw [node?_put_of_some h hy, if_neg (by simp)]
        exact ih hw
    · cases hw

theorem locate_put (h : t.node? q = none) {p : Path} (hl : t.locate p = .ok r) :
    (t.put q node).locate p = .ok r := by
  unfold locate at hl ⊢
  split at hl
  · cases hl
  · rw [if_neg ‹_›]
    exact walk_put h hl

theorem lookup_eq_ok {p : Path} :
    t.lookup p = .ok x ↔ ∃ r, t.locate p = .ok r ∧ t.node? r = some x := by
  unfold lookup
  rw [bind_eq_ok]
  refine exists_congr fun r => and_congr_right fun _ => ?_
  cases t.node? r with
  | none => simp
  | some y => simp

/-- A path that leads somewhere leads there still when a file is made where nothing was. -/
theorem lookup_put (h : t.node? q = none) {p : Path} (hl : t.lookup p = .ok x) :
    (t.put q node).lookup p = .ok x := by
  obtain ⟨r, hr, hx⟩ := lookup_eq_ok.1 hl
  exact lookup_eq_ok.2 ⟨r, locate_put h hr, node?_put_of_some h hx⟩

/-! ### Directories -/

theorem mem_children {dir : Path} (hd : t.locate dir = .ok place) {name : String} :
    name ∈ t.children dir ↔ ∃ e ∈ t.entries, e.1.rooted = place.rooted ∧
      place.parts ++ [name] <+: e.1.parts := by
  simp only [children, hd, List.mem_eraseDups, List.mem_filterMap]
  refine exists_congr fun e => and_congr_right fun _ => ?_
  by_cases below : e.1.rooted = place.rooted ∧ place.parts <+: e.1.parts
  · have cond : (decide (e.1.rooted = place.rooted) && place.parts.isPrefixOf e.1.parts) = true := by
      rwa [Bool.and_eq_true, decide_eq_true_eq, List.isPrefixOf_iff_prefix]
    obtain ⟨hrooted, rest, hrest⟩ := below
    rw [if_pos cond, ← hrest, List.drop_left, List.prefix_append_right_inj]
    cases rest with
    | nil => simp
    | cons c rest => simp [hrooted, eq_comm]
  · have cond : ¬(decide (e.1.rooted = place.rooted) && place.parts.isPrefixOf e.1.parts) = true := by
      rwa [Bool.and_eq_true, decide_eq_true_eq, List.isPrefixOf_iff_prefix]
    rw [if_neg cond]
    simp only [reduceCtorEq, false_iff]
    exact fun h => below ⟨h.1, (List.prefix_append _ _).trans h.2⟩

/-- Where no name of a directory leads, nothing stands. -/
theorem node?_child_of_notMem {dir : Path} (hd : t.locate dir = .ok place) {name : String}
    (host : Text.hostName name = name) (up : name ≠ "..") (h : name ∉ t.children dir) :
    t.node? (place.child name) = none := by
  have none_below : ∀ e ∈ t.entries, ¬(e.1.rooted = place.rooted ∧
      place.parts ++ [name] <+: e.1.parts) := fun e he below =>
    h ((mem_children hd).2 ⟨e, he, below⟩)
  have child : place.child name = ⟨place.rooted, place.parts ++ [name]⟩ := by
    rw [Place.child, host]
  have missing : t.entries.lookup (place.child name) = none := by
    rw [List.lookup_eq_none_iff]
    intro e he
    rw [bne_iff_ne, child]
    intro heq
    exact none_below e he (heq ▸ ⟨rfl, List.prefix_refl _⟩)
  rw [node?, all_up_child (by rwa [host]), if_neg (by simp), missing]
  refine if_neg fun any => ?_
  obtain ⟨e, he, below⟩ := List.any_eq_true.1 any
  rw [child, Bool.and_eq_true, decide_eq_true_eq, List.isPrefixOf_iff_prefix] at below
  exact none_below e he below

/-- A new file in a directory adds its name to those below it. -/
theorem children_put {dir : Path} (hd : t.locate dir = .ok place) {name : String}
    (host : Text.hostName name = name) (up : name ≠ "..") (h : name ∉ t.children dir) :
    (t.put (place.child name) node).children dir = name :: t.children dir := by
  have missing := node?_child_of_notMem hd host up h
  have child : place.child name = ⟨place.rooted, place.parts ++ [name]⟩ := by
    rw [Place.child, host]
  have prefixed : place.parts.isPrefixOf (place.parts ++ [name]) = true :=
    List.isPrefixOf_iff_prefix.2 (List.prefix_append _ _)
  simp only [children, locate_put missing hd, hd, List.mem_eraseDups] at h ⊢
  rw [put_of_node?_eq_none missing, List.filterMap_cons]
  simp only [child, prefixed, decide_true, Bool.and_true, if_true, List.drop_left, List.head?_cons,
    List.eraseDups_cons]
  congr 2
  refine List.filter_eq_self.2 fun b hb => ?_
  have hne : b ≠ name := fun he => h (he ▸ hb)
  simpa using hne

/-! ### Files of a directory -/

/-- Whether a directory can hold a file with a name, as far as names and lengths go. -/
structure TakesFile (dir : Path) (name : String) : Prop where
  part : isPathPart name = true
  down : name ≠ ".."
  host : Text.hostName name = name
  short : byteCount name ≤ maxPartBytes
  sound : (dir.child name).fault? = none
  reached : byteCount (dir.child name).text ≤ maxPathBytes

variable {dir : Path} {name : String}

theorem lookup_child (hd : t.locate dir = .ok place) (here : t.node? place = some .directory)
    (takes : TakesFile dir name) (h : t.node? (place.child name) = some x) :
    t.lookup (dir.child name) = .ok x := by
  have walked : t.walk (.start dir) dir.parts = .ok place := by
    unfold locate at hd
    split at hd
    · cases hd
    · exact hd
  have start : Place.start (dir.child name) = .start dir := by
    rw [Place.start, Path.anchor_child dir takes.part, Place.start]
  have reached := takes.reached
  have short := takes.short
  refine lookup_eq_ok.2 ⟨place.child name, ?_, h⟩
  rw [locate, if_neg (by omega), start, Path.parts_child dir takes.part, walk_append, walked]
  show t.walk place [name] = .ok (place.child name)
  rw [walk, here]
  simp only [takes.down, if_false]
  rw [if_neg (by omega), h, if_neg (by simp), walk]

/-- A new file can be written in a directory that takes it. -/
theorem write_child (hd : t.locate dir = .ok place) (here : t.node? place = some .directory)
    (takes : TakesFile dir name) (fresh : name ∉ t.children dir) (bytes : ByteArray) :
    t.write (dir.child name) bytes = .ok (t.put (place.child name) (.file bytes false)) := by
  have missing := node?_child_of_notMem hd takes.host takes.down fresh
  have short := takes.short
  rw [write, Path.parts_child dir takes.part, List.getLast?_concat]
  simp only [Path.parent_child dir takes.part, hd, bind, Except.bind, here, missing]
  rw [if_neg (by omega)]

end FileTree

end UnusedDeps
