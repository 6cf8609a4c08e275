import UnusedDeps.Proofs.Ignore.Grammar

/-!
# Metadata of other tools

The metadata of a package also holds what other tools keep there. A key is looked
at when it is the own key, or its other spelling where the own key is not there;
and a key that holds half of a surrogate pair makes every metadata fail. Setting
any other key to any value leaves the result as it is: the same ignore table, or a
failure as before. Main statement: `ofMetadata_put_iff`, which says for every key
whether what stands under it matters.
-/

namespace UnusedDeps

namespace Metadata

/-- The metadata with a key set to a value. -/
def put (m : Metadata) (k : String) (v : Value) : Metadata :=
  { m with fields := Mapping.set k v m.fields }

theorem set_text (m : Metadata) (k : String) (v : Value) : m.set (.text k) v = .ok (m.put k v) :=
  rfl

theorem hasHalfPair_of_hasTextKeys_put {m : Metadata} {k : String} {v : Value}
    (h : (m.put k v).HasTextKeys) : Text.hasHalfPair k = false :=
  h.2 k (Mapping.mem_keys_set.2 (Or.inl rfl))

theorem hasTextKeys_put {m : Metadata} {k : String} (whole : Text.hasHalfPair k = false)
    (v : Value) : (m.put k v).HasTextKeys ↔ m.HasTextKeys := by
  simp only [HasTextKeys, put, Mapping.mem_keys_set, forall_eq_or_imp, whole, true_and]

end Metadata

namespace IgnoreTable

/-! ### The keys that are read -/

/-- Whether a key is looked at: it is the own key, or its other spelling where the own key is not
there. -/
def IsRead (fields : Fields) (k : String) : Prop :=
  k = ownKey ∨ k = ownKeyAsName ∧ ownKey ∉ fields.map (·.1)

theorem hasHalfPair_of_isRead {fields : Fields} {k : String} (h : IsRead fields k) :
    Text.hasHalfPair k = false := by
  rcases h with rfl | ⟨rfl, -⟩
  · decide +kernel
  · decide +kernel

theorem readOwn_set_of_not_isRead {fields : Fields} {k : String} (unread : ¬IsRead fields k)
    (v : Value) : readOwn (Mapping.set k v fields) = readOwn fields := by
  rw [IsRead, not_or, not_and, not_not] at unread
  have own : Mapping.get? (Mapping.set k v fields) ownKey = Mapping.get? fields ownKey := by
    rw [Mapping.get?_set, if_neg unread.1]
  simp only [readOwn, Read.optional, own]
  split
  · rfl
  · rename_i absent
    have other : k ≠ ownKeyAsName := fun h => absent (Mapping.isSome_get?_iff.2 (unread.2 h))
    rw [Mapping.get?_set, if_neg other]

theorem readOwn_set_of_isRead {fields : Fields} {k : String} (read : IsRead fields k) (v : Value) :
    readOwn (Mapping.set k v fields) = (Read.table readOwner v).under (.name k) := by
  rw [readOwn]
  rcases read with rfl | ⟨rfl, absent⟩
  · rw [Read.optional, Mapping.get?_set, if_pos rfl]
    rfl
  · have none : Mapping.get? (Mapping.set ownKeyAsName v fields) ownKey = none := by
      rw [Mapping.get?_set, if_neg (by decide), Mapping.get?_eq_none_iff.2 absent]
    rw [none, if_neg (by decide), Read.optional, Mapping.get?_set, if_pos rfl]

/-! ### The same result -/

theorem toOption_ofMetadata_eq_iff {m m' : Metadata} {manifest : Option Path} :
    (ofMetadata (some m) manifest).toOption = (ofMetadata (some m') manifest).toOption ↔
      ∀ t, readMetadata m = .ok t ↔ readMetadata m' = .ok t := by
  rw [ofMetadata, ofMetadata]
  cases readMetadata m <;> cases readMetadata m' <;> simp [Except.toOption, eq_comm]

theorem not_same_of_isRead {m : Metadata} {k : String} {manifest : Option Path}
    (keys : m.HasTextKeys) (read : IsRead m.fields k) :
    ¬∀ v, (ofMetadata (some (m.put k v)) manifest).toOption =
      (ofMetadata (some m) manifest).toOption := by
  -- An empty table is taken there and a null is refused, so one of the two differs from `m`.
  intro same
  have whole := hasHalfPair_of_isRead read
  have taken : readMetadata (m.put k (.table [])) = .ok empty := by
    rw [readMetadata_eq_ok, Metadata.hasTextKeys_put whole, Metadata.put,
      readOwn_set_of_isRead read]
    exact ⟨keys, rfl⟩
  have refused : readMetadata (m.put k .null) ≠ .ok empty := fun h => by
    rw [readMetadata_eq_ok, Metadata.put, readOwn_set_of_isRead read] at h
    cases h.2
  rw [toOption_ofMetadata_eq_iff.1 ((same _).trans (same .null).symm)] at taken
  exact refused taken

/-- What stands under a key does not matter exactly when the key is not read or other keys make the
metadata fail, and the metadata fails without it where the key itself makes it fail. -/
theorem ofMetadata_put_iff (m : Metadata) (k : String) (manifest : Option Path) :
    (∀ v, (ofMetadata (some (m.put k v)) manifest).toOption =
        (ofMetadata (some m) manifest).toOption) ↔
      (m.HasTextKeys → ¬IsRead m.fields k) ∧
        (Text.hasHalfPair k = true → ∀ t, ofMetadata (some m) manifest ≠ .ok (some t)) := by
  simp only [ne_eq, ofMetadata_eq_ok]
  constructor
  · intro same
    refine ⟨fun keys read => not_same_of_isRead keys read same, fun half t ht => ?_⟩
    have put := (toOption_ofMetadata_eq_iff.1 (same .null) t).2 ht
    have whole := Metadata.hasHalfPair_of_hasTextKeys_put (readMetadata_eq_ok.1 put).1
    exact absurd (whole.symm.trans half) Bool.false_ne_true
  · rintro ⟨unread, half⟩ v
    rw [toOption_ofMetadata_eq_iff]
    intro t
    cases hk : Text.hasHalfPair k with
    | true =>
      refine ⟨fun h => ?_, fun h => absurd h (half hk t)⟩
      have whole := Metadata.hasHalfPair_of_hasTextKeys_put (readMetadata_eq_ok.1 h).1
      exact absurd (whole.symm.trans hk) Bool.false_ne_true
    | false =>
      rw [readMetadata_eq_ok, readMetadata_eq_ok, Metadata.hasTextKeys_put hk]
      refine and_congr_right fun keys => ?_
      rw [Metadata.put, readOwn_set_of_not_isRead (unread keys)]

/-- Under the other spelling of the own key, metadata without the own key holds an ignore table. -/
theorem not_ofMetadata_put_same :
    ¬∀ (m : Metadata) (k : String) (v : Value) (manifest : Option Path), k ≠ ownKey →
      (ofMetadata (some (m.put k v)) manifest).toOption =
        (ofMetadata (some m) manifest).toOption := by
  intro same
  have unchanged := same .empty ownKeyAsName (.table [("ignore", .table [("normal", .list ["a"])])])
    none (by decide)
  have put : ofMetadata (some (Metadata.empty.put ownKeyAsName
      (.table [("ignore", .table [("normal", .list ["a"])])]))) none = .ok (some ⟨["a"], [], []⟩) :=
    rfl
  have plain : ofMetadata (some .empty) none = .ok (some empty) := rfl
  rw [put, plain] at unchanged
  exact absurd unchanged (by decide)

end IgnoreTable

end UnusedDeps
