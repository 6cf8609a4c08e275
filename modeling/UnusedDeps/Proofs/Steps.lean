import Mathlib.Data.List.Forall2
import UnusedDeps.Logged

/-!
# Steps that have an answer

Most results of this library speak about runs that end with an answer. A step
made of two has an answer exactly when both of them have one, and a step for
each element of a list when every single one has. The lines of a run with an
answer are those of its steps, one after another.
-/

namespace UnusedDeps

variable {α β ε : Type}

/-! ### Faults -/

theorem bind_eq_ok {x : Except ε α} {f : α → Except ε β} {b : β} :
    (x >>= f) = .ok b ↔ ∃ a, x = .ok a ∧ f a = .ok b := by
  cases x <;> simp [bind, Except.bind]

theorem bind_eq_error {x : Except ε α} {f : α → Except ε β} {e : ε} :
    (x >>= f) = .error e ↔ x = .error e ∨ ∃ a, x = .ok a ∧ f a = .error e := by
  cases x <;> simp [bind, Except.bind]

theorem pure_eq_ok {a b : α} : (pure a : Except ε α) = .ok b ↔ a = b := by
  simp [pure, Except.pure]

theorem orWrongType_eq_ok {x : Option α} {a : α} : orWrongType x = .ok a ↔ x = some a := by
  cases x <;> simp [orWrongType]

theorem mapError_eq_ok {δ : Type} {f : ε → δ} {x : Except ε α} {a : α} :
    x.mapError f = .ok a ↔ x = .ok a := by
  cases x <;> simp [Except.mapError]

theorem mapM_eq_ok {f : α → Except ε β} {xs : List α} {ys : List β} :
    xs.mapM f = .ok ys ↔ List.Forall₂ (fun x y => f x = .ok y) xs ys := by
  induction xs generalizing ys with
  | nil =>
    rw [List.mapM_nil, pure_eq_ok, List.forall₂_nil_left_iff]
    exact eq_comm
  | cons x xs ih =>
    rw [List.mapM_cons, List.forall₂_cons_left_iff]
    simp only [bind_eq_ok, pure_eq_ok, ih]
    constructor
    · rintro ⟨y, hy, rest, hr, rfl⟩
      exact ⟨y, rest, hy, hr, rfl⟩
    · rintro ⟨y, rest, hy, hr, rfl⟩
      exact ⟨y, hy, rest, hr, rfl⟩

theorem forall₂_of_forall_exists {R : α → β → Prop} {xs : List α}
    (h : ∀ x ∈ xs, ∃ y, R x y) : ∃ ys, List.Forall₂ R xs ys := by
  induction xs with
  | nil => exact ⟨[], .nil⟩
  | cons x xs ih =>
    obtain ⟨y, hy⟩ := h x List.mem_cons_self
    obtain ⟨ys, hys⟩ := ih fun z hz => h z (List.mem_cons_of_mem x hz)
    exact ⟨y :: ys, .cons hy hys⟩

theorem exists_left_of_forall₂ {R : α → β → Prop} {xs : List α} {ys : List β}
    (h : List.Forall₂ R xs ys) {y : β} (hy : y ∈ ys) : ∃ x ∈ xs, R x y := by
  induction h with
  | nil => cases hy
  | cons hr _ ih =>
    rcases List.mem_cons.1 hy with rfl | hy
    · exact ⟨_, List.mem_cons_self, hr⟩
    · obtain ⟨x, hx, hxy⟩ := ih hy
      exact ⟨x, List.mem_cons_of_mem _ hx, hxy⟩

theorem exists_right_of_forall₂ {R : α → β → Prop} {xs : List α} {ys : List β}
    (h : List.Forall₂ R xs ys) {x : α} (hx : x ∈ xs) : ∃ y ∈ ys, R x y :=
  exists_left_of_forall₂ h.flip hx

theorem forall₂_split {R : α → β → Prop} {xs : List α} {before after : List β} {y : β}
    (h : List.Forall₂ R xs (before ++ y :: after)) :
    ∃ front x rest, xs = front ++ x :: rest ∧ R x y ∧ List.Forall₂ R rest after := by
  induction before generalizing xs with
  | nil =>
    cases h with
    | cons hr hrest => exact ⟨[], _, _, rfl, hr, hrest⟩
  | cons z before ih =>
    cases h with
    | cons hr hrest =>
      obtain ⟨front, x, rest, rfl, hx, hafter⟩ := ih hrest
      exact ⟨_ :: front, x, rest, rfl, hx, hafter⟩

theorem exists_filterMapM {f : α → Except ε (Option β)} {xs : List α}
    (h : ∀ x ∈ xs, ∃ y, f x = .ok y) :
    ∃ ys, xs.filterMapM f = .ok ys ∧ ∀ y ∈ ys, ∃ x ∈ xs, f x = .ok (some y) := by
  induction xs with
  | nil => exact ⟨[], rfl, fun y hy => absurd hy List.not_mem_nil⟩
  | cons x xs ih =>
    rw [List.forall_mem_cons] at h
    obtain ⟨y, hy⟩ := h.1
    obtain ⟨ys, hys, from'⟩ := ih h.2
    rw [List.filterMapM_cons, hy]
    cases y with
    | none =>
      exact ⟨ys, hys, fun z hz => (from' z hz).imp fun w hw =>
        ⟨List.mem_cons_of_mem x hw.1, hw.2⟩⟩
    | some y =>
      refine ⟨y :: ys, bind_eq_ok.2 ⟨some y, rfl, bind_eq_ok.2 ⟨ys, hys, rfl⟩⟩, ?_⟩
      rw [List.forall_mem_cons]
      refine ⟨⟨x, List.mem_cons_self, hy⟩, fun z hz => (from' z hz).imp fun w hw => ?_⟩
      exact ⟨List.mem_cons_of_mem x hw.1, hw.2⟩

theorem pairwise_of_forall₂ {R : α → β → Prop} {S : α → α → Prop} {T : β → β → Prop}
    {xs : List α} {ys : List β} (h : List.Forall₂ R xs ys) (hxs : xs.Pairwise S)
    (step : ∀ {x y x' y'}, R x y → R x' y' → S x x' → T y y') : ys.Pairwise T := by
  induction h with
  | nil => exact .nil
  | cons hr rest ih =>
    obtain ⟨apart, hxs⟩ := List.pairwise_cons.1 hxs
    refine .cons (fun y' hy' => ?_) (ih hxs)
    obtain ⟨x', hx', hr'⟩ := exists_left_of_forall₂ rest hy'
    exact step hr hr' (apart x' hx')

namespace Logged

/-! ### Logged steps -/

@[simp] theorem result_ofExcept (e : Except Fault α) : (ofExcept e).result = e := rfl

@[simp] theorem lines_ofExcept (e : Except Fault α) : (ofExcept e).lines = [] := rfl

theorem lines_pure (a : α) : (pure a : Logged α).lines = [] := rfl

theorem result_bind_eq_ok {x : Logged α} {f : α → Logged β} {b : β} :
    (x >>= f).result = .ok b ↔ ∃ a, x.result = .ok a ∧ (f a).result = .ok b := by
  rw [result_bind, bind_eq_ok]

theorem result_bind_eq_error {x : Logged α} {f : α → Logged β} {e : Fault} :
    (x >>= f).result = .error e ↔
      x.result = .error e ∨ ∃ a, x.result = .ok a ∧ (f a).result = .error e := by
  rw [result_bind, bind_eq_error]

theorem lines_bind {x : Logged α} {f : α → Logged β} {a : α} (h : x.result = .ok a) :
    (x >>= f).lines = x.lines ++ (f a).lines := by
  show (andThen x f).lines = _
  simp [andThen, h]

theorem result_forEach_eq_ok {f : α → Logged β} {xs : List α} {ys : List β} :
    (forEach f xs).result = .ok ys ↔ List.Forall₂ (fun x y => (f x).result = .ok y) xs ys := by
  induction xs generalizing ys with
  | nil =>
    rw [List.forall₂_nil_left_iff]
    exact ⟨fun h => (Except.ok.inj h).symm, fun h => congrArg Except.ok h.symm⟩
  | cons x xs ih =>
    rw [forEach, List.forall₂_cons_left_iff]
    simp only [result_bind_eq_ok, result_pure, Except.ok.injEq, ih]
    constructor
    · rintro ⟨y, hy, rest, hr, rfl⟩
      exact ⟨y, rest, hy, hr, rfl⟩
    · rintro ⟨y, rest, hy, hr, rfl⟩
      exact ⟨y, hy, rest, hr, rfl⟩

theorem lines_forEach {f : α → Logged β} {xs : List α} {ys : List β}
    (h : (forEach f xs).result = .ok ys) :
    (forEach f xs).lines = xs.flatMap fun x => (f x).lines := by
  induction xs generalizing ys with
  | nil => rfl
  | cons x xs ih =>
    rw [forEach, result_bind_eq_ok] at h
    obtain ⟨y, hy, h⟩ := h
    obtain ⟨rest, hr, h⟩ := result_bind_eq_ok.1 h
    rw [forEach, lines_bind hy, lines_bind hr, ih hr, lines_pure, List.append_nil,
      List.flatMap_cons]

end Logged

end UnusedDeps
