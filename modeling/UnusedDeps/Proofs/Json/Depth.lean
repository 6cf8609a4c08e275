import UnusedDeps.Json.Document
import UnusedDeps.Proofs.Mapping
import UnusedDeps.Proofs.Steps
import UnusedDeps.Value.Text

/-!
# Levels of values

A process has room for so many levels of lists and tables. A value that is not
deeper can be shown, or it holds an integer with too many digits, whatever room
there is beyond; a deeper one may be too deep. No document is deeper than its
reader allows. Main statements: `shownWithin_cases` and `depth_le_of_document`.
-/

namespace UnusedDeps

namespace Value

/-! ### Depths -/

theorem depthItems_le {items : List Value} {n : Nat} :
    depthItems items ≤ n ↔ ∀ v ∈ items, v.depth < n := by
  induction items with
  | nil => simp [depthItems]
  | cons v rest ih =>
    rw [depthItems, Nat.max_le, ih, List.forall_mem_cons]
    rfl

theorem depthFields_le {fields : List (String × Value)} {n : Nat} :
    depthFields fields ≤ n ↔ ∀ f ∈ fields, f.2.depth < n := by
  induction fields with
  | nil => simp [depthFields]
  | cons f rest ih =>
    rw [depthFields, Nat.max_le, ih, List.forall_mem_cons]
    rfl

theorem depth_le_of_mem_elements? {v w : Value} {vs : List Value} (h : v.elements? = some vs)
    (hw : w ∈ vs) : w.depth ≤ v.depth := by
  unfold elements? at h
  split at h <;> cases h
  · exact Nat.le_of_lt (depthItems_le.1 (Nat.le_refl _) w hw)
  · obtain ⟨n, -, rfl⟩ := List.mem_map.1 hw
    exact Nat.zero_le _
  · obtain ⟨f, -, rfl⟩ := List.mem_map.1 hw
    exact Nat.zero_le _

theorem depth_le_of_get? {fields : Fields} {name : String} {w : Value}
    (h : Mapping.get? fields name = some w) : w.depth ≤ (Value.table fields).depth :=
  Nat.le_of_lt (depthFields_le.1 (Nat.le_refl _) _ (Mapping.mem_of_get? h))

/-! ### What can be shown -/

/-- What holds of two faults holds of the first that is there. -/
theorem orElse_cases {a a' b b' : Option ShowFault} (ha : a = some .tooDeep ∨ a = a')
    (hb : b = some .tooDeep ∨ b = b') : (a.orElse fun _ => b) = some .tooDeep ∨
      (a.orElse fun _ => b) = a'.orElse fun _ => b' := by
  rcases ha with rfl | rfl
  · exact .inl rfl
  cases a with
  | none => exact hb
  | some f => exact .inr rfl

mutual

/-- With more room the first fault is the same, or there is one for want of room. -/
theorem showFault?_cases {room more : Nat} (h : room ≤ more) :
    ∀ v : Value, v.showFault? room = some .tooDeep ∨ v.showFault? room = v.showFault? more
  | .list items => showFaultItems?_cases h items
  | .table fields => showFaultFields?_cases h fields
  | .int _ | .null | .bool _ | .float _ | .text _ | .moment _ _ => .inr rfl

theorem showFaultItems?_cases {room more : Nat} (h : room ≤ more) :
    ∀ items : List Value, showFaultItems? room items = some .tooDeep ∨
      showFaultItems? room items = showFaultItems? more items
  | [] => .inr (by cases room <;> cases more <;> rfl)
  | v :: rest =>
    match room, more, h with
    | 0, _, _ => .inl rfl
    | _ + 1, _ + 1, h =>
      orElse_cases (showFault?_cases (Nat.le_of_succ_le_succ h) v) (showFaultItems?_cases h rest)

theorem showFaultFields?_cases {room more : Nat} (h : room ≤ more) :
    ∀ fields : List (String × Value), showFaultFields? room fields = some .tooDeep ∨
      showFaultFields? room fields = showFaultFields? more fields
  | [] => .inr (by cases room <;> cases more <;> rfl)
  | f :: rest =>
    match room, more, h with
    | 0, _, _ => .inl rfl
    | _ + 1, _ + 1, h =>
      orElse_cases (showFault?_cases (Nat.le_of_succ_le_succ h) f.2)
        (showFaultFields?_cases h rest)

end

mutual

/-- There is a fault for want of room only in a value that is deeper. -/
theorem lt_depth_of_showFault? {room : Nat} :
    ∀ v : Value, v.showFault? room = some .tooDeep → room < v.depth
  | .list items, h => lt_depthItems_of_showFaultItems? items h
  | .table fields, h => lt_depthFields_of_showFaultFields? fields h
  | .int n, h => by
    rw [showFault?] at h
    split at h <;> cases h

theorem lt_depthItems_of_showFaultItems? {room : Nat} :
    ∀ items : List Value, showFaultItems? room items = some .tooDeep → room < depthItems items
  | [], h => by cases room <;> cases h
  | v :: rest, h => by
    rw [depthItems]
    cases room with
    | zero => omega
    | succ room =>
      rw [showFaultItems?, Option.orElse_eq_or, Option.or_eq_some_iff] at h
      rcases h with h | ⟨-, h⟩
      · have := lt_depth_of_showFault? v h
        omega
      · have := lt_depthItems_of_showFaultItems? rest h
        omega

theorem lt_depthFields_of_showFaultFields? {room : Nat} :
    ∀ fields : List (String × Value), showFaultFields? room fields = some .tooDeep →
      room < depthFields fields
  | [], h => by cases room <;> cases h
  | f :: rest, h => by
    rw [depthFields]
    cases room with
    | zero => omega
    | succ room =>
      rw [showFaultFields?, Option.orElse_eq_or, Option.or_eq_some_iff] at h
      rcases h with h | ⟨-, h⟩
      · have := lt_depth_of_showFault? f.2 h
        omega
      · have := lt_depthFields_of_showFaultFields? rest h
        omega

end

/-- There is room for all of a value where there are as many levels as it has. -/
theorem shownWithin_depth_ne_tooDeep (v : Value) : v.shownWithin v.depth ≠ .error .tooDeep := by
  unfold shownWithin
  cases fault : v.showFault? v.depth with
  | none => exact nofun
  | some f =>
    rintro ⟨⟩
    exact absurd (lt_depth_of_showFault? v fault) (Nat.lt_irrefl _)

/-- A value is shown as where there is room for all of it, or it is too deep for the room. -/
theorem shownWithin_cases (room : Nat) (v : Value) :
    v.shownWithin room = v.shownWithin v.depth ∨
      v.shownWithin room = .error .tooDeep ∧ room < v.depth := by
  have deep (h : v.showFault? room = some .tooDeep) :
      v.shownWithin room = .error .tooDeep ∧ room < v.depth :=
    ⟨by rw [shownWithin, h], lt_depth_of_showFault? v h⟩
  rcases Nat.le_total room v.depth with less | more
  · rcases showFault?_cases less v with h | same
    · exact .inr (deep h)
    · exact .inl (by rw [shownWithin, shownWithin, same])
  · rcases showFault?_cases more v with h | same
    · exact absurd (lt_depth_of_showFault? v h) (Nat.lt_irrefl _)
    · exact .inl (by rw [shownWithin, shownWithin, same])

end Value

/-! ### Documents -/

namespace Json

theorem depth_of_number {rules : Rules} {cs r : List Char} {v : Value}
    (read : number rules cs = .ok (v, r)) : v.depth = 0 := by
  unfold number at read
  split at read
  obtain ⟨⟨ds, rest⟩, -, read⟩ := bind_eq_ok.1 read
  dsimp only at read
  repeat' split at read
  all_goals cases read <;> rfl

theorem depth_of_scalar {rules : Rules} {cs r : List Char} {v : Value}
    (read : scalar rules cs = .ok (v, r)) : v.depth = 0 := by
  unfold scalar at read
  split at read
  · rename_i found
    cases read
    obtain ⟨w, hw, dropped⟩ := List.exists_of_findSome?_eq_some found
    obtain ⟨rest, -, same⟩ := Option.map_eq_some_iff.1 dropped
    cases same
    have flat : ∀ w ∈ words, w.2.depth = 0 := by decide
    exact flat w hw
  · exact depth_of_number read

theorem depth_ne_zero_of_emptyEnd? {rules : Rules} {close : Char} {depth : Nat} {r : List Char}
    (h : emptyEnd? rules close depth r = .ok none) : depth ≠ 0 := by
  rintro rfl
  unfold emptyEnd? at h
  cases hs : skipSpace r with
  | nil =>
    rw [hs] at h
    cases h
  | cons c rest =>
    rw [hs] at h
    dsimp only at h
    by_cases closed : c = close
    · rw [if_pos closed] at h
      split at h <;> cases h
    · rw [if_neg closed] at h
      cases h

section Steps

variable {rules : Rules} {fuel : Nat}

/-- Whether values that the reader takes in so many steps are no deeper than it allows. -/
def ReadsWithin (rules : Rules) (fuel : Nat) : Prop :=
  ∀ depth cs v r, value rules fuel depth cs = .ok (v, r) → v.depth ≤ depth

def ListsWithin (rules : Rules) (fuel : Nat) : Prop :=
  ∀ depth so cs v r, (∀ w ∈ so, w.depth ≤ depth) → items rules fuel depth so cs = .ok (v, r) →
    v.depth ≤ depth + 1

def TablesWithin (rules : Rules) (fuel : Nat) : Prop :=
  ∀ depth so cs v r, (∀ f ∈ so, f.2.depth ≤ depth) → fields rules fuel depth so cs = .ok (v, r) →
    v.depth ≤ depth + 1

theorem ReadsWithin.succ (lists : ListsWithin rules fuel) (tables : TablesWithin rules fuel) :
    ReadsWithin rules (fuel + 1) := by
  intro depth cs v r read
  unfold value at read
  split at read
  · rename_i rest
    cases text : textAfter? rules.halfPairs fuel [] rest with
    | none =>
      rw [text] at read
      cases read
    | some answer =>
      rw [text] at read
      cases read
      exact Nat.zero_le _
  · split at read
    · cases read
    · cases read
      exact Nat.zero_le _
    · rename_i opened
      have := depth_ne_zero_of_emptyEnd? opened
      have := lists _ _ _ _ _ (List.forall_mem_nil _) read
      omega
  · split at read
    · cases read
    · cases read
      exact Nat.zero_le _
    · rename_i opened
      have := depth_ne_zero_of_emptyEnd? opened
      have := tables _ _ _ _ _ (List.forall_mem_nil _) read
      omega
  · rw [depth_of_scalar read]
    exact Nat.zero_le _

theorem ListsWithin.succ (values : ReadsWithin rules fuel) (lists : ListsWithin rules fuel) :
    ListsWithin rules (fuel + 1) := by
  intro depth so cs v r shallow read
  unfold items at read
  split at read
  · cases read
  rename_i w rest item
  have all : ∀ u ∈ w :: so, u.depth ≤ depth :=
    List.forall_mem_cons.2 ⟨values _ _ _ _ item, shallow⟩
  split at read
  · cases read
    exact Value.depthItems_le.2 fun u hu => Nat.lt_succ_of_le (all u (List.mem_reverse.1 hu))
  · exact lists _ _ _ _ _ all read
  · cases read

theorem TablesWithin.succ (values : ReadsWithin rules fuel) (tables : TablesWithin rules fuel) :
    TablesWithin rules (fuel + 1) := by
  intro depth so cs v r shallow read
  unfold fields at read
  split at read
  case h_2 => cases read
  split at read
  · cases read
  rename_i k rest name
  split at read
  case h_2 => cases read
  split at read
  · cases read
  rename_i w rest item
  have all : ∀ f ∈ (k, w) :: so, f.2.depth ≤ depth :=
    List.forall_mem_cons.2 ⟨values _ _ _ _ item, shallow⟩
  split at read
  · cases read
    exact Value.depthFields_le.2 fun f hf =>
      Nat.lt_succ_of_le (all f (List.mem_reverse.1 (Mapping.mem_of_mem_ofPairs hf)))
  · exact tables _ _ _ _ _ all read
  · cases read

end Steps

theorem within_of_fuel (rules : Rules) (fuel : Nat) :
    ReadsWithin rules fuel ∧ ListsWithin rules fuel ∧ TablesWithin rules fuel := by
  induction fuel with
  | zero => exact ⟨fun _ _ _ _ => nofun, fun _ _ _ _ _ _ => nofun, fun _ _ _ _ _ _ => nofun⟩
  | succ fuel ih =>
    obtain ⟨values, lists, tables⟩ := ih
    exact ⟨.succ lists tables, .succ values lists, .succ values tables⟩

/-- A document is no deeper than its reader allows. -/
theorem depth_le_of_document {s : String} {v : Value} (read : document s = .ok v) :
    v.depth ≤ documentRules.maxDepth := by
  unfold document Json.read wholeValue at read
  split at read
  · rename_i w r hw
    split at read
    · cases read
      exact (within_of_fuel _ _).1 _ _ _ _ hw
    · cases read
  · cases read

end Json

end UnusedDeps
