import UnusedDeps.Proofs.Steps

/-!
# Failures that are told

A step can end with a problem, which the user is told of, or with a fault that
nobody explains. A step made of two tells its failures exactly when the first one
does and, wherever that has an answer, the second one too. Of several steps in a
row only those count that are reached. Main statements: `told_bind` and
`told_forEach`.
-/

namespace UnusedDeps

variable {α β : Type}

/-- Whether a step ends with an answer or with a problem. -/
def Told (x : Except Fault α) : Prop := ∀ f, x = .error f → ∃ p, f = .problem p

theorem told_ok (a : α) : Told (.ok a : Except Fault α) := by
  intro f h
  cases h

theorem told_problem (p : Problem) : Told (.error (.problem p) : Except Fault α) := by
  intro f h
  cases h
  exact ⟨p, rfl⟩

theorem told_error {f : Fault} : Told (.error f : Except Fault α) ↔ ∃ p, f = .problem p := by
  constructor
  · exact fun h => h f rfl
  · rintro ⟨p, rfl⟩
    exact told_problem p

theorem told_bind {x : Except Fault α} {f : α → Except Fault β} :
    Told (x >>= f) ↔ Told x ∧ ∀ a, x = .ok a → Told (f a) := by
  cases x with
  | error e =>
    show Told (.error e : Except Fault β) ↔ _
    rw [told_error, told_error]
    exact ⟨fun h => ⟨h, fun a ha => nomatch ha⟩, And.left⟩
  | ok a =>
    show Told (f a) ↔ _
    refine ⟨fun h => ⟨told_ok a, fun b hb => ?_⟩, fun h => h.2 a rfl⟩
    cases hb
    exact h

/-- A failure is told when it is turned into a problem. -/
theorem told_mapError {ε : Type} (x : Except ε α) (problem : ε → Problem) :
    Told (x.mapError fun e => .problem (problem e)) := by
  cases x with
  | error e => exact told_problem (problem e)
  | ok a => exact told_ok a

theorem told_foldlM {f : β → α → Except Fault β} {xs : List α} (h : ∀ b, ∀ x ∈ xs, Told (f b x))
    (b : β) : Told (xs.foldlM f b) := by
  induction xs generalizing b with
  | nil => exact told_ok b
  | cons x xs ih =>
    rw [List.foldlM_cons, told_bind]
    exact ⟨h b x List.mem_cons_self,
      fun c _ => ih (fun b y hy => h b y (List.mem_cons_of_mem x hy)) c⟩

/-! ### Steps in a row -/

/-- Whether an element of a list has only such elements in front of it. -/
def Reached (passed : α → Prop) (xs : List α) (x : α) : Prop :=
  ∃ before after, xs = before ++ x :: after ∧ ∀ y ∈ before, passed y

theorem not_reached_nil (passed : α → Prop) (x : α) : ¬Reached passed [] x := by
  rintro ⟨before, after, h, -⟩
  cases before <;> cases h

theorem reached_cons {passed : α → Prop} {x y : α} {xs : List α} :
    Reached passed (x :: xs) y ↔ y = x ∨ passed x ∧ Reached passed xs y := by
  constructor
  · rintro ⟨before, after, h, front⟩
    cases before with
    | nil =>
      cases h
      exact .inl rfl
    | cons z before =>
      cases h
      rw [List.forall_mem_cons] at front
      exact .inr ⟨front.1, before, after, rfl, front.2⟩
  · rintro (rfl | ⟨hx, before, after, rfl, front⟩)
    · exact ⟨[], xs, rfl, List.forall_mem_nil _⟩
    · exact ⟨x :: before, after, rfl, List.forall_mem_cons.2 ⟨hx, front⟩⟩

theorem Reached.mem {passed : α → Prop} {x : α} {xs : List α} (h : Reached passed xs x) :
    x ∈ xs := by
  obtain ⟨before, after, rfl, -⟩ := h
  exact List.mem_append_right before List.mem_cons_self

theorem reached_congr {P Q : α → Prop} {xs : List α} (h : ∀ x ∈ xs, P x ↔ Q x) (x : α) :
    Reached P xs x ↔ Reached Q xs x := by
  induction xs with
  | nil => exact iff_of_false (not_reached_nil P x) (not_reached_nil Q x)
  | cons y xs ih =>
    rw [List.forall_mem_cons] at h
    rw [reached_cons, reached_cons, h.1, ih h.2]

/-- What holds of every element that is reached, the first one apart. -/
theorem forall_reached_cons {passed P : α → Prop} {x : α} {xs : List α} :
    (∀ y, Reached passed (x :: xs) y → P y) ↔
      P x ∧ (passed x → ∀ y, Reached passed xs y → P y) := by
  simp only [reached_cons]
  constructor
  · exact fun h => ⟨h x (.inl rfl), fun hx y hy => h y (.inr ⟨hx, hy⟩)⟩
  · rintro ⟨hx, rest⟩ y (rfl | ⟨passed, hy⟩)
    · exact hx
    · exact rest passed y hy

/-- What holds of some element that is reached, the first one apart. -/
theorem exists_reached_cons {passed P : α → Prop} {x : α} {xs : List α} :
    (∃ y, Reached passed (x :: xs) y ∧ P y) ↔
      P x ∨ passed x ∧ ∃ y, Reached passed xs y ∧ P y := by
  simp only [reached_cons]
  constructor
  · rintro ⟨y, rfl | ⟨passed, reached⟩, hy⟩
    · exact .inl hy
    · exact .inr ⟨passed, y, reached, hy⟩
  · rintro (hx | ⟨passed, y, reached, hy⟩)
    · exact ⟨x, .inl rfl, hx⟩
    · exact ⟨y, .inr ⟨passed, reached⟩, hy⟩

/-- A list that holds an element which stops it has a first such element. -/
theorem exists_reached_iff {passed : α → Prop} {xs : List α} :
    (∃ x, Reached passed xs x ∧ ¬passed x) ↔ ∃ x ∈ xs, ¬passed x := by
  induction xs with
  | nil =>
    refine iff_of_false (fun ⟨x, hx, _⟩ => not_reached_nil passed x hx) ?_
    exact fun ⟨x, hx, _⟩ => List.not_mem_nil hx
  | cons x xs ih =>
    rw [exists_reached_cons, List.exists_mem_cons_iff, ih]
    by_cases hx : passed x
    · simp [hx]
    · simp [hx]

/-! ### Steps that follow a list -/

section Follows

variable {δ : Type}

/-- Whether a step fails as the first refused element of a list says, and only so. -/
def Follows (refusal? : δ → Option Fault) (ds : List δ) (x : Except Fault α) : Prop :=
  ∀ f, x = .error f ↔ ds.findSome? refusal? = some f

variable {refusal? : δ → Option Fault}

theorem follows_nil {x : Except Fault α} : Follows refusal? [] x ↔ ∃ a, x = .ok a := by
  cases x with
  | ok a => exact ⟨fun _ => ⟨a, rfl⟩, fun _ f => ⟨nofun, nofun⟩⟩
  | error f => exact ⟨fun h => (nomatch (h f).1 rfl), fun ⟨a, ha⟩ => nomatch ha⟩

theorem follows_cons_of_met {d : δ} {ds : List δ} {x : Except Fault α} (met : refusal? d = none) :
    Follows refusal? (d :: ds) x ↔ Follows refusal? ds x := by
  simp only [Follows, List.findSome?_cons, met]

theorem follows_met {d : δ} (met : refusal? d = none) (a : α) :
    Follows refusal? [d] (.ok a) :=
  (follows_cons_of_met met).2 (follows_nil.2 ⟨a, rfl⟩)

theorem follows_refused {d : δ} {f : Fault} (refused : refusal? d = some f) (ds : List δ) :
    Follows refusal? (d :: ds) (.error f : Except Fault α) := by
  intro g
  simp [refused]

theorem Follows.error_iff {ds : List δ} {x : Except Fault α} (h : Follows refusal? ds x)
    {f : Fault} : x = .error f ↔
      ∃ d, Reached (fun e => refusal? e = none) ds d ∧ refusal? d = some f := by
  rw [h f, List.findSome?_eq_some_iff]
  constructor
  · rintro ⟨before, d, after, split, refused, met⟩
    exact ⟨d, ⟨before, after, split, met⟩, refused⟩
  · rintro ⟨d, ⟨before, after, split, met⟩, refused⟩
    exact ⟨before, d, after, split, refused, met⟩

theorem Follows.fails_iff {ds : List δ} {x : Except Fault α} (h : Follows refusal? ds x) :
    (∃ f, x = .error f) ↔ ∃ d ∈ ds, refusal? d ≠ none := by
  rw [← exists_reached_iff]
  constructor
  · rintro ⟨f, hf⟩
    obtain ⟨d, reached, refused⟩ := h.error_iff.1 hf
    exact ⟨d, reached, by simp [refused]⟩
  · rintro ⟨d, reached, refused⟩
    obtain ⟨f, hf⟩ := Option.ne_none_iff_exists'.1 refused
    exact ⟨f, h.error_iff.2 ⟨d, reached, hf⟩⟩

/-- A step that goes on with another one follows the two lists one after the other. -/
theorem Follows.bind {ds es : List δ} {x : Except Fault α} {g : α → Except Fault β}
    (hx : Follows refusal? ds x) (hg : ∀ a, x = .ok a → Follows refusal? es (g a)) :
    Follows refusal? (ds ++ es) (x >>= g) := by
  intro f
  rw [List.findSome?_append]
  cases x with
  | error e =>
    have refused : ds.findSome? refusal? = some e := (hx e).1 rfl
    rw [refused]
    show (.error e : Except Fault β) = .error f ↔ some e = some f
    rw [Except.error.injEq, Option.some.injEq]
  | ok a =>
    have met : ds.findSome? refusal? = none := by
      cases h : ds.findSome? refusal? with
      | none => rfl
      | some e => cases (hx e).2 h
    rw [met]
    exact hg a rfl f

/-- What a step does with an answer cannot fail. -/
theorem Follows.bind_ok {ds : List δ} {x : Except Fault α} {g : α → Except Fault β}
    (hx : Follows refusal? ds x) (hg : ∀ a, x = .ok a → ∃ b, g a = .ok b) :
    Follows refusal? ds (x >>= g) := by
  have rest (a : α) (ha : x = .ok a) : Follows refusal? [] (g a) := follows_nil.2 (hg a ha)
  have h := hx.bind rest
  rwa [List.append_nil] at h

theorem Follows.ok_bind {ds : List δ} {x : Except Fault α} {g : α → Except Fault β} {a : α}
    (hx : x = .ok a) (hg : Follows refusal? ds (g a)) : Follows refusal? ds (x >>= g) := by
  rw [hx]
  exact hg

theorem follows_mapM {xs : List β} {demands : β → List δ} {g : β → Except Fault α}
    (h : ∀ x ∈ xs, Follows refusal? (demands x) (g x)) :
    Follows refusal? (xs.flatMap demands) (xs.mapM g) := by
  induction xs with
  | nil => exact follows_nil.2 ⟨[], rfl⟩
  | cons x xs ih =>
    rw [List.forall_mem_cons] at h
    rw [List.flatMap_cons, List.mapM_cons]
    exact h.1.bind fun y _ => (ih h.2).bind_ok fun ys _ => ⟨_, rfl⟩

end Follows

/-! ### Steps with a log -/

namespace Logged

/-- Whether a step has an answer. -/
def Answers (x : Logged α) : Prop := ∃ a, x.result = .ok a

/-- Steps in a row fail as the first of them that fails. -/
theorem result_forEach_eq_error {f : α → Logged β} {xs : List α} {e : Fault} :
    (forEach f xs).result = .error e ↔
      ∃ x, Reached (fun y => (f y).Answers) xs x ∧ (f x).result = .error e := by
  induction xs with
  | nil =>
    refine ⟨(nomatch ·), ?_⟩
    rintro ⟨x, reached, -⟩
    exact absurd reached (not_reached_nil _ x)
  | cons x xs ih =>
    rw [forEach, result_bind_eq_error, exists_reached_cons, ← ih]
    refine or_congr_right ?_
    constructor
    · rintro ⟨y, hy, h⟩
      rcases result_bind_eq_error.1 h with h | ⟨ys, -, h⟩
      · exact ⟨⟨y, hy⟩, h⟩
      · cases h
    · rintro ⟨⟨y, hy⟩, h⟩
      exact ⟨y, hy, result_bind_eq_error.2 (.inl h)⟩

end Logged

end UnusedDeps
