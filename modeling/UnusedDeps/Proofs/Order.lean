import Mathlib.Data.List.Lex
import UnusedDeps.Proofs.Keys

/-!
# The order of keys

A text of a document keeps a sequence of code points, and only one text keeps a
given sequence. On keys that are such texts the order is linear, so whatever is
sorted by them and distinct comes out strictly increasing, and in whatever order
it was before, it comes out the same.
-/

namespace UnusedDeps

/-! ### Texts that keep code points -/

/-- Whether a text keeps a sequence of code points, as every text of a document does. -/
def Text.IsCoded (s : String) : Prop :=
  ∃ ns : List Nat, (∀ n ∈ ns, n < 0x110000) ∧ Text.ofCodes ns = s

theorem Text.IsCoded.ofCodes_codes {s : String} (h : Text.IsCoded s) :
    Text.ofCodes (Text.codes s) = s := by
  obtain ⟨ns, bound, rfl⟩ := h
  rw [Text.codes_ofCodes ns bound]

theorem Text.codes_inj {s t : String} (hs : Text.IsCoded s) (ht : Text.IsCoded t) :
    Text.codes s = Text.codes t ↔ s = t := by
  constructor
  · intro h
    rw [← hs.ofCodes_codes, ← ht.ofCodes_codes, h]
  · intro h
    rw [h]

theorem Text.isCode_of_char (c : Char) : c.toNat < 0x110000 ∧ Text.isHalfPair c.toNat = false := by
  have valid : c.toNat < 0xd800 ∨ 0xdfff < c.toNat ∧ c.toNat < 0x110000 := c.valid
  refine ⟨by omega, ?_⟩
  simp only [Text.isHalfPair, Bool.and_eq_false_iff, decide_eq_false_iff_not]
  omega

theorem Text.charsOf_toNat {c : Char} (h : Text.keepsHalfPair c = false) (hc : c ≠ Text.mark) :
    Text.charsOf c.toNat = [c] := by
  unfold Text.charsOf
  rw [(Text.isCode_of_char c).2, Char.ofNat_toNat, h]
  simp [hc]

/-- Texts without the characters that keep other code points keep their own. -/
theorem Text.isCoded_of_plain {s : String}
    (h : (s.toList.all fun c => !Text.keepsHalfPair c && c ≠ Text.mark) = true) :
    Text.IsCoded s := by
  have plain : ∀ c ∈ s.toList, Text.keepsHalfPair c = false ∧ c ≠ Text.mark := by
    simpa using h
  refine ⟨s.toList.map Char.toNat, ?_, ?_⟩
  · intro n hn
    obtain ⟨c, -, rfl⟩ := List.mem_map.1 hn
    exact (Text.isCode_of_char c).1
  · have chars : (s.toList.map Char.toNat).flatMap Text.charsOf =
        s.toList.flatMap fun c => [c] := by
      rw [List.flatMap_map]
      exact List.flatMap_congr fun c hc => Text.charsOf_toNat (plain c hc).1 (plain c hc).2
    rw [Text.ofCodes, chars, List.flatMap_singleton', String.ofList_toList]

namespace Key

/-- The code points of a key, none for one that is no text. -/
def code : Key → List Nat
  | .text s => Text.codes s
  | _ => []

/-- Whether a key is a text that keeps a sequence of code points. -/
def IsCoded (k : Key) : Prop := ∃ s, k = .text s ∧ Text.IsCoded s

theorem code_inj {a b : Key} (ha : a.IsCoded) (hb : b.IsCoded) : a.code = b.code ↔ a = b := by
  obtain ⟨s, rfl, hs⟩ := ha
  obtain ⟨t, rfl, ht⟩ := hb
  rw [code, code, Text.codes_inj hs ht, Key.text.injEq]

theorem codes_inj {as bs : List Key} (ha : ∀ k ∈ as, k.IsCoded) (hb : ∀ k ∈ bs, k.IsCoded) :
    as.map code = bs.map code ↔ as = bs := by
  induction as generalizing bs with
  | nil => cases bs <;> simp
  | cons a as ih =>
    cases bs with
    | nil => simp
    | cons b bs =>
      rw [List.forall_mem_cons] at ha hb
      rw [List.map_cons, List.map_cons, List.cons.injEq, List.cons.injEq, code_inj ha.1 hb.1,
        ih ha.2 hb.2]

/-! ### The order -/

theorem compare?_coded {a b : Key} (ha : a.IsCoded) (hb : b.IsCoded) :
    compare? a b = some (compareOfLessAndEq a.code b.code) := by
  obtain ⟨s, rfl, -⟩ := ha
  obtain ⟨t, rfl, -⟩ := hb
  rfl

theorem compareAll?_coded {as bs : List Key} (ha : ∀ k ∈ as, k.IsCoded)
    (hb : ∀ k ∈ bs, k.IsCoded) :
    compareAll? as bs = some (compareOfLessAndEq (as.map code) (bs.map code)) := by
  induction as generalizing bs with
  | nil => cases bs <;> simp [compareAll?, compareOfLessAndEq]
  | cons a as ih =>
    cases bs with
    | nil => simp [compareAll?, compareOfLessAndEq]
    | cons b bs =>
      rw [List.forall_mem_cons] at ha hb
      rw [compareAll?, List.map_cons, List.map_cons]
      split
      · rename_i h
        subst h
        rw [ih ha.2 hb.2]
        simp [compareOfLessAndEq]
      · rename_i h
        have apart : a.code ≠ b.code := fun h' => h ((code_inj ha.1 hb.1).1 h')
        rw [compare?_coded ha.1 hb.1]
        simp [compareOfLessAndEq, List.cons_lt_cons_iff, apart]

theorem compareAll?_eq_lt {as bs : List Key} (ha : ∀ k ∈ as, k.IsCoded)
    (hb : ∀ k ∈ bs, k.IsCoded) :
    compareAll? as bs = some .lt ↔ as.map code < bs.map code := by
  rw [compareAll?_coded ha hb, Option.some.injEq, compareOfLessAndEq_eq_lt]

theorem compareAll?_ne_gt {as bs : List Key} (ha : ∀ k ∈ as, k.IsCoded)
    (hb : ∀ k ∈ bs, k.IsCoded) :
    (compareAll? as bs != some .gt) = decide (as.map code ≤ bs.map code) := by
  rw [compareAll?_coded ha hb, Bool.eq_iff_iff, bne_iff_ne, decide_eq_true_eq, ne_eq,
    Option.some.injEq,
    compareOfLessAndEq_eq_gt (fun h h' => le_antisymm h h') le_total not_le, not_lt]

end Key

/-- Whether the keys of one come before those of the other. -/
def Precedes {α : Type} (keys : α → Option (List Key)) (a b : α) : Prop :=
  ∃ ks ls, keys a = some ks ∧ keys b = some ls ∧ Key.compareAll? ks ls = some .lt

theorem Precedes.keys_ne {α : Type} {keys : α → Option (List Key)} {a b : α}
    (h : Precedes keys a b) : keys a ≠ keys b := by
  obtain ⟨ks, ls, hks, hls, hlt⟩ := h
  intro same
  cases hks.symm.trans (same.trans hls)
  rw [Key.compareAll?_self] at hlt
  cases hlt

theorem not_precedes_self {α : Type} {keys : α → Option (List Key)} (a : α) :
    ¬Precedes keys a a := fun h => h.keys_ne rfl

/-- Whether something has keys that are texts of code points. -/
def HasCodedKeys {α : Type} (keys : α → Option (List Key)) (a : α) : Prop :=
  ∃ ks, keys a = some ks ∧ ∀ k ∈ ks, k.IsCoded

/-! ### Sorting -/

theorem pairwise_mergeSort_of_le {α : Type} {le : α → α → Bool} {f : α → List (List Nat)}
    {xs : List α} (h : ∀ a ∈ xs, ∀ b ∈ xs, le a b = decide (f a ≤ f b)) :
    (xs.mergeSort le).Pairwise fun a b => f a ≤ f b := by
  have hmap : (xs.mergeSort le).map f = (xs.map f).mergeSort fun a b => decide (a ≤ b) :=
    List.map_mergeSort h
  have trans (a b c : List (List Nat)) (hab : decide (a ≤ b) = true)
      (hbc : decide (b ≤ c) = true) : decide (a ≤ c) = true :=
    decide_eq_true (le_trans (of_decide_eq_true hab) (of_decide_eq_true hbc))
  have total (a b : List (List Nat)) : (decide (a ≤ b) || decide (b ≤ a)) = true := by
    simpa using le_total a b
  have sorted := List.pairwise_mergeSort trans total (xs.map f)
  rw [← hmap, List.pairwise_map] at sorted
  exact sorted.imp of_decide_eq_true

variable {α : Type} {keys : α → Option (List Key)} {xs ys : List α}

/-- Distinct elements come out of sorting strictly increasing. -/
theorem pairwise_sortByKeys? (coded : ∀ x ∈ xs, HasCodedKeys keys x)
    (distinct : xs.Pairwise fun a b => keys a ≠ keys b) (h : sortByKeys? keys xs = some ys) :
    ys.Pairwise (Precedes keys) := by
  obtain ⟨keyed, hk, h⟩ := Option.bind_eq_some_iff.1 h
  split at h
  · cases h
    obtain ⟨keyed', hk', hmem⟩ := withKeys?_isSome fun x hx => ⟨_, (coded x hx).choose_spec.1⟩
    cases hk.symm.trans hk'
    have codedKeys : ∀ e ∈ keyed, ∀ k ∈ e.1, k.IsCoded := fun e he => by
      obtain ⟨ks, hks, hcoded⟩ := coded e.2 (hmem e he).1
      cases hks.symm.trans (hmem e he).2
      exact hcoded
    -- On these keys the order is that of the code points, which is linear.
    have increasing : (keyed.mergeSort fun a b => Key.compareAll? a.1 b.1 != some .gt).Pairwise
        fun a b => a.1.map Key.code ≤ b.1.map Key.code :=
      pairwise_mergeSort_of_le fun a ha b hb =>
        Key.compareAll?_ne_gt (codedKeys a ha) (codedKeys b hb)
    have apart : keyed.Pairwise fun a b => keys a.2 ≠ keys b.2 := by
      rw [← map_snd_of_withKeys? hk, List.pairwise_map] at distinct
      exact distinct
    have perm := List.mergeSort_perm keyed fun a b => Key.compareAll? a.1 b.1 != some .gt
    have apart := (perm.pairwise_iff fun hab => Ne.symm hab).2 apart
    rw [List.pairwise_map]
    refine (increasing.and apart).imp_of_mem fun {a b} ha hb hab => ?_
    have ha := perm.mem_iff.1 ha
    have hb := perm.mem_iff.1 hb
    have hne : a.1.map Key.code ≠ b.1.map Key.code := fun heq => hab.2 (by
      rw [(hmem a ha).2, (hmem b hb).2, (Key.codes_inj (codedKeys a ha) (codedKeys b hb)).1 heq])
    exact ⟨a.1, b.1, (hmem a ha).2, (hmem b hb).2,
      (Key.compareAll?_eq_lt (codedKeys a ha) (codedKeys b hb)).2 (lt_of_le_of_ne hab.1 hne)⟩
  · cases h

/-! ### Sorting whatever the order before -/

theorem Precedes.asymm {a b : α} (ha : HasCodedKeys keys a) (hb : HasCodedKeys keys b)
    (h : Precedes keys a b) : ¬Precedes keys b a := by
  obtain ⟨ks, hks, cks⟩ := ha
  obtain ⟨ls, hls, cls⟩ := hb
  obtain ⟨ks', ls', hks', hls', hlt⟩ := h
  cases hks.symm.trans hks'
  cases hls.symm.trans hls'
  rintro ⟨ls', ks', hls', hks', hgt⟩
  cases hks.symm.trans hks'
  cases hls.symm.trans hls'
  have before := (Key.compareAll?_eq_lt cks cls).1 hlt
  have after := (Key.compareAll?_eq_lt cls cks).1 hgt
  exact lt_asymm before after

theorem HasCodedKeys.texts {a : α} (h : HasCodedKeys keys a) :
    ∃ ss : List String, keys a = some (ss.map .text) := by
  obtain ⟨ks, hks, coded⟩ := h
  have texts : ∃ ss : List String, ks = ss.map .text := by
    clear hks
    induction ks with
    | nil => exact ⟨[], rfl⟩
    | cons k ks ih =>
      rw [List.forall_mem_cons] at coded
      obtain ⟨s, rfl, -⟩ := coded.1
      obtain ⟨ss, rfl⟩ := ih coded.2
      exact ⟨s :: ss, rfl⟩
  obtain ⟨ss, rfl⟩ := texts
  exact ⟨ss, hks⟩

theorem exists_sortByKeys? (coded : ∀ x ∈ xs, HasCodedKeys keys x)
    (distinct : xs.Pairwise fun a b => keys a ≠ keys b) :
    ∃ ys, sortByKeys? keys xs = some ys ∧ ys.Perm xs ∧ ys.Pairwise (Precedes keys) := by
  obtain ⟨ys, hys⟩ := sortByKeys?_isSome fun x hx => (coded x hx).texts
  exact ⟨ys, hys, sortByKeys?_perm hys, pairwise_sortByKeys? coded distinct hys⟩

/-- What is strictly increasing stays as it is. -/
theorem sortByKeys?_of_pairwise (coded : ∀ x ∈ xs, HasCodedKeys keys x)
    (increasing : xs.Pairwise (Precedes keys)) : sortByKeys? keys xs = some xs := by
  have distinct : xs.Pairwise fun a b => keys a ≠ keys b := increasing.imp Precedes.keys_ne
  obtain ⟨ys, hys, perm, sorted⟩ := exists_sortByKeys? coded distinct
  rw [hys, perm.eq_of_pairwise (fun a b ha hb hab hba => ?_) sorted increasing]
  exact absurd hba (hab.asymm (coded a (perm.mem_iff.1 ha)) (coded b hb))

theorem sortByKeys?_congr {zs : List α} (perm : xs.Perm zs)
    (coded : ∀ x ∈ xs, HasCodedKeys keys x) (distinct : xs.Pairwise fun a b => keys a ≠ keys b) :
    sortByKeys? keys xs = sortByKeys? keys zs := by
  have coded' : ∀ z ∈ zs, HasCodedKeys keys z := fun z hz => coded z (perm.mem_iff.2 hz)
  have distinct' : zs.Pairwise fun a b => keys a ≠ keys b :=
    (perm.pairwise_iff fun hab => Ne.symm hab).1 distinct
  obtain ⟨ys, hys, hperm, increasing⟩ := exists_sortByKeys? coded distinct
  obtain ⟨ys', hys', hperm', increasing'⟩ := exists_sortByKeys? coded' distinct'
  have same : ys.Perm ys' := hperm.trans (perm.trans hperm'.symm)
  have hyy : ys = ys' := by
    refine same.eq_of_pairwise (fun a b ha hb hab hba => ?_) increasing increasing'
    have hca := coded a (hperm.mem_iff.1 ha)
    have hcb := coded' b (hperm'.mem_iff.1 hb)
    exact absurd hba (hab.asymm hca hcb)
  rw [hys, hys', hyy]

/-! ### Identities that are texts -/

/-- Whether a value is a text that keeps a sequence of code points. -/
def Value.IsCoded (v : Value) : Prop := ∃ s, v = .text s ∧ Text.IsCoded s

theorem Value.isCoded_of_plain {s : String}
    (h : (s.toList.all fun c => !Text.keepsHalfPair c && c ≠ Text.mark) = true) :
    (Value.text s).IsCoded := ⟨s, rfl, Text.isCoded_of_plain h⟩

/-- Whether the three parts of an identity are texts that keep code points. -/
structure PackageId.IsCoded (p : PackageId) : Prop where
  name : p.name.IsCoded
  version : p.version.IsCoded
  source : p.source.IsCoded

/-- Whether an identity comes before another. -/
def PackageId.Before (p q : PackageId) : Prop := Precedes PackageId.keys? p q

theorem Value.IsCoded.key? {v : Value} (h : v.IsCoded) : ∃ k, v.key? = some k ∧ k.IsCoded := by
  obtain ⟨s, rfl, hs⟩ := h
  exact ⟨.text s, rfl, s, rfl, hs⟩

theorem PackageId.IsCoded.hasCodedKeys {p : PackageId} (h : p.IsCoded) :
    HasCodedKeys PackageId.keys? p := by
  obtain ⟨a, ha, hca⟩ := h.name.key?
  obtain ⟨b, hb, hcb⟩ := h.version.key?
  obtain ⟨c, hc, hcc⟩ := h.source.key?
  refine ⟨[a, b, c], by simp [PackageId.keys?, keysOf?, ha, hb, hc], ?_⟩
  simp only [List.forall_mem_cons]
  exact ⟨hca, hcb, hcc, by simp⟩

theorem keys?_ne {p q : PackageId} (hp : p.IsCoded) (h : p.same q = false) :
    p.keys? ≠ q.keys? := by
  intro heq
  obtain ⟨ks, hks, -⟩ := hp.hasCodedKeys
  rw [PackageId.same_iff.2 ⟨ks, hks, heq ▸ hks⟩] at h
  cases h

end UnusedDeps
