import Mathlib.Data.List.Perm.Basic
import UnusedDeps.Proofs.Graph.Packages

/-!
# Lists in another order

Two lists hold the same entries in any order, where an entry may differ from its
counterpart in the order of the lists inside it. Whatever is read from the
entries one by one is then the same up to order.
-/

namespace UnusedDeps

variable {α β γ : Type}

/-- Whether the second list has counterparts of the elements of the first one, in any order. -/
def Rearranged (R : α → β → Prop) (xs : List α) (ys : List β) : Prop :=
  ∃ zs, xs.Perm zs ∧ List.Forall₂ R zs ys

/-- Whether two fields are both left out, both of the wrong type, or given with related contents. -/
inductive Field.Rel (R : α → β → Prop) : Field α → Field β → Prop where
  | absent : Rel R .absent .absent
  | malformed : Rel R .malformed .malformed
  | given {a : α} {b : β} (h : R a b) : Rel R (.given a) (.given b)

theorem Option.Rel.refl_of {R : α → α → Prop} (h : ∀ a, R a a) (x : Option α) :
    Option.Rel R x x := by
  cases x with
  | none => exact .none
  | some a => exact .some (h a)

theorem Option.Rel.symm_of {R : α → β → Prop} {S : β → α → Prop}
    (h : ∀ {a b}, R a b → S b a) {x : Option α} {y : Option β} (hr : Option.Rel R x y) :
    Option.Rel S y x := by
  cases hr with
  | some hab => exact .some (h hab)
  | none => exact .none

theorem Field.Rel.refl {R : α → α → Prop} (h : ∀ a, R a a) (f : Field α) :
    Field.Rel R f f := by
  cases f with
  | absent => exact .absent
  | malformed => exact .malformed
  | given a => exact .given (h a)

theorem Field.Rel.symm {R : α → β → Prop} {S : β → α → Prop} (h : ∀ {a b}, R a b → S b a)
    {f : Field α} {f' : Field β} (hf : Field.Rel R f f') : Field.Rel S f' f := by
  cases hf with
  | absent => exact .absent
  | malformed => exact .malformed
  | given hr => exact .given (h hr)

theorem Field.Rel.listed {R : List α → List β → Prop} {f : Field (List α)} {f' : Field (List β)}
    (h : Field.Rel R f f') (nil : R [] []) : R f.listed f'.listed := by
  cases h with
  | absent => exact nil
  | malformed => exact nil
  | given hr => exact hr

theorem Field.Rel.listOrEmpty {R : List α → List β → Prop} {f : Field (List α)}
    {f' : Field (List β)} (h : Field.Rel R f f') (nil : R [] []) {xs : List α}
    (hxs : f.listOrEmpty = .ok xs) : ∃ ys, f'.listOrEmpty = .ok ys ∧ R xs ys := by
  cases h with
  | absent =>
    cases hxs
    exact ⟨[], rfl, nil⟩
  | malformed => cases hxs
  | given hr =>
    cases hxs
    exact ⟨_, rfl, hr⟩

theorem Field.Rel.exists_given {R : α → β → Prop} {f : Field α} {f' : Field β}
    (h : Field.Rel R f f') {a : α} (ha : f = .given a) : ∃ b, f' = .given b ∧ R a b := by
  cases h with
  | absent => cases ha
  | malformed => cases ha
  | given hr =>
    cases ha
    exact ⟨_, rfl, hr⟩

theorem forall₂_of_perm {R : α → β → Prop} {xs xs' : List α} {ys : List β} (perm : xs.Perm xs')
    (h : List.Forall₂ R xs ys) : ∃ ys', List.Forall₂ R xs' ys' ∧ ys'.Perm ys :=
  List.perm_comp_forall₂ perm.symm h

namespace Rearranged

theorem nil (R : α → β → Prop) : Rearranged R [] [] := ⟨[], .nil, .nil⟩

theorem refl {R : α → α → Prop} (h : ∀ a, R a a) (xs : List α) : Rearranged R xs xs :=
  ⟨xs, .refl xs, List.forall₂_same.2 fun a _ => h a⟩

theorem perm {xs ys : List α} (h : Rearranged Eq xs ys) : xs.Perm ys := by
  obtain ⟨zs, perm, each⟩ := h
  rw [List.forall₂_eq_eq_eq] at each
  exact each ▸ perm

theorem map {δ : Type} {R : α → β → Prop} {S : γ → δ → Prop} {f : α → γ} {g : β → δ}
    (step : ∀ a b, R a b → S (f a) (g b)) {xs : List α} {ys : List β} (h : Rearranged R xs ys) :
    Rearranged S (xs.map f) (ys.map g) := by
  obtain ⟨zs, perm, each⟩ := h
  refine ⟨zs.map f, perm.map f, ?_⟩
  rw [List.forall₂_map_left_iff, List.forall₂_map_right_iff]
  exact each.imp step

theorem symm {R : α → β → Prop} {S : β → α → Prop} (hRS : ∀ {a b}, R a b → S b a) {xs : List α}
    {ys : List β} (h : Rearranged R xs ys) : Rearranged S ys xs := by
  obtain ⟨zs, perm, each⟩ := h
  have back : List.Forall₂ S ys zs := each.flip.imp fun b a hab => hRS hab
  obtain ⟨ws, hws, perm'⟩ := forall₂_of_perm (R := fun a b => S b a) perm.symm back.flip
  exact ⟨ws, perm'.symm, hws.flip⟩

/-- What is read from the entries one by one is the same up to order. -/
theorem exists_flatten {R : α → β → Prop} {S : α → List γ → Prop} {T : β → List γ → Prop}
    {xs : List α} {ys : List β} {ess : List (List γ)} (h : Rearranged R xs ys)
    (step : ∀ x y es, R x y → S x es → ∃ es', T y es' ∧ es'.Perm es)
    (hS : List.Forall₂ S xs ess) :
    ∃ ess', List.Forall₂ T ys ess' ∧ ess'.flatten.Perm ess.flatten := by
  obtain ⟨zs, perm, each⟩ := h
  obtain ⟨ws, hws, hperm⟩ := forall₂_of_perm perm hS
  have counterparts : ∃ ess', List.Forall₂ T ys ess' ∧ ess'.flatten.Perm ws.flatten := by
    clear perm hperm
    induction each generalizing ws with
    | nil =>
      cases hws
      exact ⟨[], .nil, .refl _⟩
    | cons hr _ ih =>
      cases hws with
      | cons hs hrest =>
        obtain ⟨es', hs', hes⟩ := step _ _ _ hr hs
        obtain ⟨rest, hrest', hflat⟩ := ih _ hrest
        exact ⟨es' :: rest, .cons hs' hrest', hes.append hflat⟩
  obtain ⟨ess', hess', hflat⟩ := counterparts
  exact ⟨ess', hess', hflat.trans hperm.flatten⟩

end Rearranged

end UnusedDeps
