import UnusedDeps.Proofs.Steps
import UnusedDeps.Usage.Matching

/-!
# Sameness of keys

Values, package identities and used names are looked up by their keys. Being the
same key is an equivalence on whatever has a key, and on texts it is equality.
Main statements: a pair set by key is the one found again, values without
repeated keys are those that were there, and sorting by keys only reorders.
-/

namespace UnusedDeps

/-- Two keys that are compared only where the first one is there. -/
theorem isSome_and_eq_iff {κ : Type} [DecidableEq κ] {a b : Option κ} :
    (a.isSome && decide (a = b)) = true ↔ ∃ k, a = some k ∧ b = some k := by
  cases a with
  | none => simp
  | some k =>
    simp only [Option.isSome_some, Bool.true_and, decide_eq_true_eq, Option.some.injEq,
      exists_eq_left']
    exact eq_comm

/-! ### Values -/

theorem Value.sameKey_iff {v w : Value} :
    v.sameKey w = true ↔ ∃ k, v.key? = some k ∧ w.key? = some k :=
  isSome_and_eq_iff

theorem Value.sameKey_symm {v w : Value} (h : v.sameKey w = true) : w.sameKey v = true := by
  obtain ⟨k, hv, hw⟩ := Value.sameKey_iff.1 h
  exact Value.sameKey_iff.2 ⟨k, hw, hv⟩

theorem Value.sameKey_trans {u v w : Value} (h : u.sameKey v = true) (h' : v.sameKey w = true) :
    u.sameKey w = true := by
  obtain ⟨k, hu, hv⟩ := Value.sameKey_iff.1 h
  obtain ⟨l, hv', hw⟩ := Value.sameKey_iff.1 h'
  have hkl : k = l := Option.some.inj (hv.symm.trans hv')
  exact Value.sameKey_iff.2 ⟨k, hu, hkl ▸ hw⟩

@[simp] theorem Value.sameKey_texts (s t : String) :
    (Value.text s).sameKey (.text t) = true ↔ s = t := by
  simp [Value.sameKey, key?_text]

/-- Whether a value is a text, as all names of a well-formed document are. -/
def Value.IsText (v : Value) : Prop := ∃ s, v = .text s

theorem Value.isText_text (s : String) : (Value.text s).IsText := ⟨s, rfl⟩

theorem Value.sameKey_iff_eq {v w : Value} (hv : v.IsText) (hw : w.IsText) :
    v.sameKey w = true ↔ v = w := by
  obtain ⟨s, rfl⟩ := hv
  obtain ⟨t, rfl⟩ := hw
  rw [Value.sameKey_texts, Value.text.injEq]

/-! ### Identities -/

namespace PackageId

theorem same_iff {p q : PackageId} :
    p.same q = true ↔ ∃ ks, p.keys? = some ks ∧ q.keys? = some ks :=
  isSome_and_eq_iff

theorem same_self {p : PackageId} (h : p.keys?.isSome) : p.same p = true := by
  simp [same, h]

theorem same_symm {p q : PackageId} (h : p.same q = true) : q.same p = true := by
  obtain ⟨ks, hp, hq⟩ := same_iff.1 h
  exact same_iff.2 ⟨ks, hq, hp⟩

theorem same_trans {p q r : PackageId} (h : p.same q = true) (h' : q.same r = true) :
    p.same r = true := by
  obtain ⟨ks, hp, hq⟩ := same_iff.1 h
  obtain ⟨ls, hq', hr⟩ := same_iff.1 h'
  have hkl : ks = ls := Option.some.inj (hq.symm.trans hq')
  exact same_iff.2 ⟨ks, hp, hkl ▸ hr⟩

theorem same_comm (p q : PackageId) : p.same q = q.same p :=
  Bool.eq_iff_iff.2 ⟨same_symm, same_symm⟩

theorem isSome_keys?_of_same {p q : PackageId} (h : p.same q = true) : p.keys?.isSome := by
  obtain ⟨ks, hp, _⟩ := same_iff.1 h
  simp [hp]

theorem length_of_keys? {p : PackageId} {ks : List Key} (h : p.keys? = some ks) :
    ks.length = 3 := by
  simp only [keys?, keysOf?, List.mapM_cons, List.mapM_nil, Option.bind_eq_bind, Option.pure_def,
    Option.bind_eq_some_iff, Option.some.injEq] at h
  obtain ⟨n, -, rest, ⟨v, -, rest', ⟨s, -, last, rfl, rfl⟩, rfl⟩, rfl⟩ := h
  rfl

theorem find?_same_eq {α : Type} {key : α → PackageId} {xs : List α} {x : α} {p : PackageId}
    (distinct : xs.Pairwise fun a b => (key a).same (key b) = false) (hx : x ∈ xs)
    (hs : (key x).same p = true) : xs.find? (fun a => (key a).same p) = some x := by
  induction xs with
  | nil => cases hx
  | cons a xs ih =>
    obtain ⟨apart, distinct⟩ := List.pairwise_cons.1 distinct
    rcases List.mem_cons.1 hx with rfl | hx
    · exact List.find?_cons_of_pos hs
    · have other : ¬(key a).same p = true := fun ha =>
        Bool.eq_false_iff.1 (apart x hx) (same_trans ha (same_symm hs))
      rw [List.find?_cons_of_neg (by simpa using other)]
      exact ih distinct hx

/-- Whether the three parts of an identity are texts. -/
structure IsTextual (p : PackageId) : Prop where
  name : p.name.IsText
  version : p.version.IsText
  source : p.source.IsText

theorem IsTextual.keys? {p : PackageId} (h : p.IsTextual) :
    ∃ n v s, p = ⟨.text n, .text v, .text s⟩ ∧ p.keys? = some [.text n, .text v, .text s] := by
  obtain ⟨⟨n, hn⟩, ⟨v, hv⟩, ⟨s, hs⟩⟩ := h
  obtain ⟨pn, pv, ps⟩ := p
  subst hn hv hs
  exact ⟨n, v, s, rfl, keys?_texts n v s⟩

theorem IsTextual.same_self {p : PackageId} (h : p.IsTextual) : p.same p = true := by
  obtain ⟨n, v, s, -, hk⟩ := h.keys?
  exact PackageId.same_self (by rw [hk]; rfl)

theorem IsTextual.same_iff {p q : PackageId} (hp : p.IsTextual) (hq : q.IsTextual) :
    p.same q = true ↔ p = q := by
  obtain ⟨n, v, s, rfl, -⟩ := hp.keys?
  obtain ⟨n', v', s', rfl, -⟩ := hq.keys?
  rw [same_texts]
  simp

end PackageId

namespace UsedName

theorem keys?_eq_some {x : UsedName} {all : List Key} :
    x.keys? = some all ↔
      ∃ ks k, x.package.keys? = some ks ∧ x.name.key? = some k ∧ ks ++ [k] = all := by
  simp only [keys?, Option.bind_eq_bind, Option.pure_def, Option.bind_eq_some_iff,
    Option.some.injEq]
  exact ⟨fun ⟨ks, hks, k, hk, h⟩ => ⟨ks, k, hks, hk, h⟩,
    fun ⟨ks, k, hks, hk, h⟩ => ⟨ks, hks, k, hk, h⟩⟩

theorem same_iff {x y : UsedName} :
    x.same y = true ↔ x.package.same y.package = true ∧ x.name.sameKey y.name = true := by
  have hsame : x.same y = true ↔ ∃ all, x.keys? = some all ∧ y.keys? = some all :=
    isSome_and_eq_iff
  rw [hsame, PackageId.same_iff, Value.sameKey_iff]
  constructor
  · rintro ⟨all, hx, hy⟩
    obtain ⟨ks, k, hks, hk, rfl⟩ := keys?_eq_some.1 hx
    obtain ⟨ls, l, hls, hl, hall⟩ := keys?_eq_some.1 hy
    have hlen : ls.length = ks.length := by
      rw [PackageId.length_of_keys? hks, PackageId.length_of_keys? hls]
    obtain ⟨rfl, hlast⟩ := List.append_inj hall hlen
    cases hlast
    exact ⟨⟨ls, hks, hls⟩, _, hk, hl⟩
  · rintro ⟨⟨ks, hx, hy⟩, k, hk, hl⟩
    exact ⟨ks ++ [k], keys?_eq_some.2 ⟨ks, k, hx, hk, rfl⟩, keys?_eq_some.2 ⟨ks, k, hy, hl, rfl⟩⟩

end UsedName

/-! ### Sets and pairs -/

theorem mem_of_mem_insertKey {vs : List Value} {u v : Value} (h : u ∈ insertKey vs v) :
    u ∈ vs ∨ u = v := by
  unfold insertKey at h
  split at h
  · exact .inl h
  · simpa using h

theorem mem_insertKey_of_isText {vs : List Value} {u v : Value} (hvs : ∀ w ∈ vs, w.IsText)
    (hv : v.IsText) : u ∈ insertKey vs v ↔ u ∈ vs ∨ u = v := by
  refine ⟨mem_of_mem_insertKey, fun h => ?_⟩
  unfold insertKey
  split
  · rename_i found
    obtain ⟨w, hw, same⟩ := List.any_eq_true.1 found
    have heq := (Value.sameKey_iff_eq hv (hvs w hw)).1 same
    exact h.elim id fun h => h ▸ heq ▸ hw
  · simpa using h

theorem pairwise_insertKey {vs : List Value} (v : Value)
    (h : vs.Pairwise fun a b => a.sameKey b = false) :
    (insertKey vs v).Pairwise fun a b => a.sameKey b = false := by
  unfold insertKey
  split
  · exact h
  · rename_i fresh
    rw [List.pairwise_append]
    refine ⟨h, List.pairwise_singleton _ _, fun a ha b hb => ?_⟩
    cases List.mem_singleton.1 hb
    by_contra same
    rw [Bool.not_eq_false] at same
    exact fresh (List.any_eq_true.2 ⟨a, ha, Value.sameKey_symm same⟩)

theorem mem_foldl_insertKey {vs seen : List Value} {u : Value} (hseen : ∀ w ∈ seen, w.IsText)
    (hvs : ∀ w ∈ vs, w.IsText) : u ∈ vs.foldl insertKey seen ↔ u ∈ seen ∨ u ∈ vs := by
  induction vs generalizing seen with
  | nil => simp
  | cons v vs ih =>
    have hv := hvs v List.mem_cons_self
    -- What is taken up stays a list of texts, so the step lemma applies again.
    have hnext : ∀ w ∈ insertKey seen v, w.IsText := fun w hw =>
      (mem_of_mem_insertKey hw).elim (hseen w) fun h => h ▸ hv
    rw [List.foldl_cons, ih hnext fun w hw => hvs w (List.mem_cons_of_mem v hw),
      mem_insertKey_of_isText hseen hv, List.mem_cons, or_assoc]

theorem mem_distinctKeys {vs : List Value} {u : Value} (hvs : ∀ w ∈ vs, w.IsText) :
    u ∈ distinctKeys vs ↔ u ∈ vs := by
  rw [distinctKeys, mem_foldl_insertKey (fun _ h => absurd h List.not_mem_nil) hvs]
  simp

theorem pairwise_foldl_insertKey {vs seen : List Value}
    (h : seen.Pairwise fun a b => a.sameKey b = false) :
    (vs.foldl insertKey seen).Pairwise fun a b => a.sameKey b = false := by
  induction vs generalizing seen with
  | nil => exact h
  | cons v vs ih => exact ih (pairwise_insertKey v h)

theorem pairwise_distinctKeys (vs : List Value) :
    (distinctKeys vs).Pairwise fun a b => a.sameKey b = false :=
  pairwise_foldl_insertKey List.Pairwise.nil

theorem nodup_of_pairwise_sameKey {vs : List Value} (texts : ∀ v ∈ vs, v.IsText)
    (apart : vs.Pairwise fun v w => v.sameKey w = false) : vs.Nodup :=
  apart.imp_of_mem fun {v w} hv hw other heq => by
    rw [(Value.sameKey_iff_eq (texts v hv) (texts w hw)).2 heq] at other
    cases other

theorem getByKey?_setByKey {α : Type} (k j : Value) (a : α) (pairs : List (Value × α)) :
    getByKey? (setByKey k a pairs) j =
      if k.sameKey j = true then some a else getByKey? pairs j := by
  induction pairs with
  | nil => by_cases h : k.sameKey j = true <;> simp [setByKey, getByKey?, h]
  | cons e rest ih =>
    unfold setByKey
    by_cases hk : e.1.sameKey k = true
    · rw [if_pos hk]
      by_cases hj : e.1.sameKey j = true
      · have hkj := Value.sameKey_trans (Value.sameKey_symm hk) hj
        simp [getByKey?, hj, hkj]
      · have hkj : ¬k.sameKey j = true := fun h => hj (Value.sameKey_trans hk h)
        simp [getByKey?, hj, hkj]
    · rw [if_neg hk]
      by_cases hj : e.1.sameKey j = true
      · have hkj : ¬k.sameKey j = true := fun h =>
          hk (Value.sameKey_trans hj (Value.sameKey_symm h))
        simp [getByKey?, hj, hkj]
      · have hrest := ih
        simp only [getByKey?] at hrest ⊢
        rw [List.find?_cons_of_neg (by simpa using hj), hrest,
          List.find?_cons_of_neg (by simpa using hj)]

theorem mem_setByKey {α : Type} {k : Value} {a : α} {pairs : List (Value × α)} {e : Value × α}
    (h : e ∈ setByKey k a pairs) : e ∈ pairs ∨ e.2 = a := by
  induction pairs with
  | nil =>
    cases List.mem_singleton.1 h
    exact .inr rfl
  | cons f rest ih =>
    unfold setByKey at h
    split at h
    · rcases List.mem_cons.1 h with rfl | h
      · exact .inr rfl
      · exact .inl (List.mem_cons_of_mem f h)
    · rcases List.mem_cons.1 h with rfl | h
      · exact .inl List.mem_cons_self
      · exact (ih h).imp_left (List.mem_cons_of_mem f)

theorem key_of_mem_setByKey {α : Type} {k : Value} {a : α} {pairs : List (Value × α)}
    {e : Value × α} (h : e ∈ setByKey k a pairs) : e.1 = k ∨ ∃ f ∈ pairs, e.1 = f.1 := by
  induction pairs with
  | nil =>
    cases List.mem_singleton.1 h
    exact .inl rfl
  | cons f rest ih =>
    unfold setByKey at h
    split at h
    · rcases List.mem_cons.1 h with rfl | h
      · exact .inr ⟨f, List.mem_cons_self, rfl⟩
      · exact .inr ⟨e, List.mem_cons_of_mem f h, rfl⟩
    · rcases List.mem_cons.1 h with rfl | h
      · exact .inr ⟨e, List.mem_cons_self, rfl⟩
      · refine (ih h).imp_right fun ⟨d, hd, heq⟩ => ⟨d, List.mem_cons_of_mem f hd, heq⟩

theorem pairwise_setByKey {α : Type} (k : Value) (a : α) {pairs : List (Value × α)}
    (apart : pairs.Pairwise fun p q => p.1.sameKey q.1 = false) :
    (setByKey k a pairs).Pairwise fun p q => p.1.sameKey q.1 = false := by
  induction pairs with
  | nil => exact List.pairwise_singleton _ _
  | cons e rest ih =>
    obtain ⟨first, apart⟩ := List.pairwise_cons.1 apart
    unfold setByKey
    split
    · exact List.pairwise_cons.2 ⟨first, apart⟩
    · rename_i other
      refine List.pairwise_cons.2 ⟨fun p hp => ?_, ih apart⟩
      rcases key_of_mem_setByKey hp with heq | ⟨f, hf, heq⟩
      · rw [heq]
        exact Bool.eq_false_iff.2 other
      · rw [heq]
        exact first f hf

/-! ### Sorting -/

theorem sortByKeys?_perm {α : Type} {keys : α → Option (List Key)} {xs ys : List α}
    (h : sortByKeys? keys xs = some ys) : ys.Perm xs := by
  obtain ⟨keyed, hk, h⟩ := Option.bind_eq_some_iff.1 h
  split at h
  · cases h
    rw [← map_snd_of_withKeys? hk]
    exact (List.mergeSort_perm keyed _).map _
  · cases h

theorem withKeys?_isSome {α : Type} {keys : α → Option (List Key)} {xs : List α}
    (each : ∀ x ∈ xs, ∃ ks, keys x = some ks) :
    ∃ keyed, withKeys? keys xs = some keyed ∧ ∀ e ∈ keyed, e.2 ∈ xs ∧ keys e.2 = some e.1 := by
  induction xs with
  | nil => exact ⟨[], rfl, fun _ h => absurd h List.not_mem_nil⟩
  | cons x xs ih =>
    obtain ⟨ks, hks⟩ := each x List.mem_cons_self
    obtain ⟨keyed, hk, hmem⟩ := ih fun y hy => each y (List.mem_cons_of_mem x hy)
    refine ⟨(ks, x) :: keyed, ?_, ?_⟩
    · unfold withKeys? at hk ⊢
      rw [List.mapM_cons, hks, hk]
      rfl
    · intro e he
      rcases List.mem_cons.1 he with rfl | he
      · exact ⟨List.mem_cons_self, hks⟩
      · exact ⟨List.mem_cons_of_mem x (hmem e he).1, (hmem e he).2⟩

theorem Key.comparable_of_forall {lists : List (List Key)}
    (h : ∀ ks ∈ lists, ∀ ls ∈ lists, Key.haveOrder ks ls = true) :
    Key.comparable lists = true := by
  induction lists with
  | nil => rfl
  | cons ks rest ih =>
    rw [Key.comparable, Bool.and_eq_true, List.all_eq_true]
    exact ⟨fun ls hls => h ks List.mem_cons_self ls (List.mem_cons_of_mem ks hls),
      ih fun as has bs hbs => h as (List.mem_cons_of_mem ks has) bs (List.mem_cons_of_mem ks hbs)⟩

theorem Key.haveOrder_texts (ss ts : List String) :
    Key.haveOrder (ss.map .text) (ts.map .text) = true := by
  induction ss generalizing ts with
  | nil => simp [Key.haveOrder]
  | cons s ss ih =>
    cases ts with
    | nil => simp [Key.haveOrder]
    | cons t ts =>
      rw [List.map_cons, List.map_cons, Key.haveOrder]
      split
      · exact ih ts
      · rfl

theorem sortByKeys?_isSome {α : Type} {keys : α → Option (List Key)} {xs : List α}
    (h : ∀ x ∈ xs, ∃ ss : List String, keys x = some (ss.map .text)) :
    ∃ ys, sortByKeys? keys xs = some ys := by
  obtain ⟨keyed, hk, hmem⟩ := withKeys?_isSome fun x hx => ⟨_, (h x hx).choose_spec⟩
  have texts : ∀ ks ∈ keyed.map (·.1), ∃ ss : List String, ks = ss.map .text := by
    intro ks hks
    obtain ⟨e, he, rfl⟩ := List.mem_map.1 hks
    obtain ⟨hx, hkx⟩ := hmem e he
    obtain ⟨ss, hss⟩ := h _ hx
    exact ⟨ss, Option.some.inj (hkx.symm.trans hss)⟩
  have orders : Key.comparable (keyed.map (·.1)) = true := by
    refine Key.comparable_of_forall fun ks hks ls hls => ?_
    obtain ⟨ss, rfl⟩ := texts ks hks
    obtain ⟨ts, rfl⟩ := texts ls hls
    exact Key.haveOrder_texts ss ts
  exact ⟨_, Option.bind_eq_some_iff.2 ⟨keyed, hk, if_pos orders⟩⟩

end UnusedDeps
