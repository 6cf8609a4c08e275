import UnusedDeps.Proofs.Graph.Faithful

/-!
# Identities of local packages

The source of a local package is the URI of its directory, and the bytes of the
directory can be read off the URI: a percent sign stands for no byte by itself, so
no two bytes begin alike. Two directories thus have one source exactly when they
lead to the same bytes, which for directories of Unicode text means to the same
path. Main statement: `distinguishes_ofDirectory`.
-/

namespace UnusedDeps

/-! ### Bytes in a URI -/

theorem flatMap_inj {α β : Type} {f : α → List β} (some : ∀ a, f a ≠ [])
    (apart : ∀ a b r s, f a ++ r = f b ++ s → a = b ∧ r = s) {xs ys : List α}
    (h : xs.flatMap f = ys.flatMap f) : xs = ys := by
  induction xs generalizing ys with
  | nil =>
    cases ys with
    | nil => rfl
    | cons y ys => exact absurd (List.append_eq_nil_iff.1 h.symm).1 (some y)
  | cons x xs ih =>
    cases ys with
    | nil => exact absurd (List.append_eq_nil_iff.1 h).1 (some x)
    | cons y ys =>
      obtain ⟨rfl, rest⟩ := apart x y _ _ h
      rw [ih rest]

namespace Path

theorem upperHexDigit_inj {m n : Nat} (hm : m < 16) (hn : n < 16)
    (h : upperHexDigit m = upperHexDigit n) : m = n := by
  have each : ∀ m < 16, ∀ n < 16, upperHexDigit m = upperHexDigit n → m = n := by decide
  exact each m hm n hn h

theorem ofNat_byte_inj {b c : UInt8} (h : Char.ofNat b.toNat = Char.ofNat c.toNat) : b = c := by
  have code (b : UInt8) : (Char.ofNat b.toNat).toNat = b.toNat :=
    Text.toNat_ofNat_of_isValidChar (.inl (by have := b.toNat_lt; omega))
  have same := congrArg Char.toNat h
  rw [code, code] at same
  exact UInt8.toNat_inj.1 same

/-- A byte that stands for itself is no percent sign. -/
theorem ofNat_ne_percent {b : UInt8} (h : isUriByte b = true) : Char.ofNat b.toNat ≠ '%' := by
  intro percent
  rw [isUriByte, percent] at h
  exact absurd h (by decide)

theorem uriByte_ne_nil (b : UInt8) : uriByte b ≠ [] := by
  unfold uriByte
  split <;> exact List.cons_ne_nil _ _

/-- The byte that a URI goes on with is known from what it goes on with. -/
theorem uriByte_append_inj (b c : UInt8) (r s : List Char) (h : uriByte b ++ r = uriByte c ++ s) :
    b = c ∧ r = s := by
  unfold uriByte at h
  split at h <;> rename_i hb <;> split at h <;> rename_i hc
  · obtain ⟨same, rest⟩ := List.cons.inj h
    exact ⟨ofNat_byte_inj same, rest⟩
  · exact absurd (List.cons.inj h).1 (ofNat_ne_percent hb)
  · exact absurd (List.cons.inj h).1.symm (ofNat_ne_percent hc)
  · simp only [List.cons_append, List.nil_append, List.cons.injEq, true_and] at h
    obtain ⟨high, low, rest⟩ := h
    have hb := b.toNat_lt
    have hc := c.toNat_lt
    have high := upperHexDigit_inj (by omega) (by omega) high
    have low := upperHexDigit_inj (by omega) (by omega) low
    exact ⟨UInt8.toNat_inj.1 (by omega), rest⟩

/-- Whether two paths are one to the host, which knows a path by its bytes. -/
def SameBytes (p q : Path) : Prop := Text.hostBytes? p.text = Text.hostBytes? q.text

theorem toUri_eq_iff {p q : Path} (hp : p.fault? = none) (hq : q.fault? = none) :
    p.toUri = q.toUri ↔ p.SameBytes q := by
  obtain ⟨bs, hbs⟩ := Option.isSome_iff_exists.1
    (Text.hostBytes?_isSome_iff.2 (nameFault?_eq_none_iff.1 hp).1)
  obtain ⟨cs, hcs⟩ := Option.isSome_iff_exists.1
    (Text.hostBytes?_isSome_iff.2 (nameFault?_eq_none_iff.1 hq).1)
  rw [SameBytes, toUri, toUri, hbs, hcs]
  constructor
  · intro h
    rw [String.append_right_inj, String.ofList_inj] at h
    exact congrArg some (flatMap_inj uriByte_ne_nil uriByte_append_inj h)
  · intro h
    rw [Option.some.inj h]

end Path

/-! ### Directories of Unicode text -/

namespace Text

theorem codes_ofPlain (s : String) : codes (ofPlain s) = s.toList.map Char.toNat :=
  codes_ofCodes _ fun n hn => by
    obtain ⟨c, -, rfl⟩ := List.mem_map.1 hn
    exact (isCode_of_char c).1

/-- The bytes of a Unicode text are its UTF-8. -/
theorem hostBytes?_ofPlain (s : String) :
    hostBytes? (ofPlain s) = some (s.toList.flatMap String.utf8EncodeChar) := by
  have each : ∀ n ∈ s.toList.map Char.toNat,
      nameBytes? n = some (String.utf8EncodeChar (Char.ofNat n)) := by
    intro n hn
    obtain ⟨c, -, rfl⟩ := List.mem_map.1 hn
    rw [nameBytes?, (isCode_of_char c).2]
    rfl
  rw [hostBytes?, codes_ofPlain, mapM_eq_some_map each, Option.map_some, ← List.flatMap_def,
    List.flatMap_map]
  simp only [Char.ofNat_toNat]

theorem hostBytes?_ofPlain_inj {s t : String}
    (h : hostBytes? (ofPlain s) = hostBytes? (ofPlain t)) : ofPlain s = ofPlain t := by
  have read (s : String) : ofUtf8? (s.toList.flatMap String.utf8EncodeChar) =
      some (ofPlain s) := by
    rw [ofUtf8?_chars, ← toList_ofPlain, String.ofList_toList, String.ofList_toList]
  rw [hostBytes?_ofPlain, hostBytes?_ofPlain, Option.some.injEq] at h
  exact Option.some.inj ((read s).symm.trans ((congrArg ofUtf8? h).trans (read t)))

/-- Whether characters are those that keep Unicode text. -/
def KeepsUnicode (cs : List Char) : Prop :=
  ∃ ns : List Nat, (∀ n ∈ ns, n.isValidChar) ∧ ns.flatMap charsOf = cs

theorem keepsUnicode_iff {s : String} : KeepsUnicode s.toList ↔ ∃ t, s = ofPlain t := by
  constructor
  · rintro ⟨ns, valid, keeps⟩
    refine ⟨String.ofList (ns.map Char.ofNat), ?_⟩
    have codes : (ns.map Char.ofNat).map Char.toNat = ns := by
      rw [List.map_map]
      conv => rhs; rw [← List.map_id ns]
      exact List.map_congr_left fun n hn => toNat_ofNat_of_isValidChar (valid n hn)
    rw [ofPlain, String.toList_ofList, codes, ofCodes, keeps, String.ofList_toList]
  · rintro ⟨t, rfl⟩
    refine ⟨t.toList.map Char.toNat, fun n hn => ?_, ?_⟩
    · obtain ⟨c, -, rfl⟩ := List.mem_map.1 hn
      exact c.valid
    · rw [ofPlain, ofCodes, String.toList_ofList]

end Text

namespace Path

/-- Whether a path is one of Unicode text, without half a surrogate pair. -/
def IsUnicode (p : Path) : Prop := ∃ s, p.text = Text.ofPlain s

theorem isUnicode_iff {p : Path} :
    p.IsUnicode ↔ ∀ part ∈ p.parts, Text.KeepsUnicode part.toList := by
  have dot : Text.KeepsUnicode ".".toList := ⟨[0x2e], by decide, by decide⟩
  rw [IsUnicode, ← Text.keepsUnicode_iff]
  exact text_iff (Text.isSplitAtSlashes_kept (by decide)) dot

theorem IsUnicode.resolve [Whereabouts] {p : Path} (h : p.IsUnicode) : p.resolve.IsUnicode := by
  have working : ∀ part ∈ workingDirectory.parts, Text.KeepsUnicode part.toList :=
    forall_parts_ofText (Text.isSplitAtSlashes_kept (by decide))
      (Text.keepsUnicode_iff.2 ⟨Whereabouts.directory, rfl⟩)
  exact isUnicode_iff.2 (forall_parts_resolve (P := fun part => Text.KeepsUnicode part.toList)
    (isUnicode_iff.1 h) working)

/-- Paths of Unicode text with the same bytes are the same. -/
theorem sameBytes_iff_eq {p q : Path} (hp : p.IsUnicode) (hq : q.IsUnicode) :
    p.SameBytes q ↔ p = q := by
  refine ⟨fun h => ?_, fun h => h ▸ rfl⟩
  obtain ⟨s, hs⟩ := hp
  obtain ⟨t, ht⟩ := hq
  rw [SameBytes, hs, ht] at h
  have text : p.text = q.text := by rw [hs, ht, Text.hostBytes?_ofPlain_inj h]
  rw [← ofText_text p, text, ofText_text]

end Path

/-! ### Identities -/

namespace PackageId

/-- Whether two identities are those of the packages with these names and versions in two
directories, and of no others. -/
structure Distinguish [Whereabouts] (name version name' version' : String) (d d' : Path)
    (p p' : PackageId) : Prop where
  isLocal : p.isLocal? = some true ∧ p'.isLocal? = some true
  eq_iff : d.IsUnicode → d'.IsUnicode →
    (p = p' ↔ name = name' ∧ version = version' ∧ d.resolve = d'.resolve)
  /-- Half a surrogate pair stands for a byte, so other directories are told apart by their bytes. -/
  eq_iff_bytes : p = p' ↔ name = name' ∧ version = version' ∧ d.resolve.SameBytes d'.resolve
  /-- Nothing that is kept under an identity is kept for two packages. -/
  shares : ∀ q : PackageId, q.same p = true → q.same p' = true → p = p'

theorem ofDirectory_of_named [Whereabouts] (name version : String) {d : Path}
    (named : d.fault? = none) : ofDirectory (.text name) (.text version) d =
      .ok ⟨.text name, .text version, .text (localStart ++ d.resolve.toUri)⟩ := by
  rw [ofDirectory, named]

theorem isLocal?_localSource (name version : Value) (p : Path) :
    isLocal? ⟨name, version, .text (localStart ++ p.toUri)⟩ = some true := by
  show some (localStart.toList.isPrefixOf (localStart ++ p.toUri).toList) = some true
  rw [Option.some.injEq, List.isPrefixOf_iff_prefix, String.toList_append]
  exact List.prefix_append _ _

/-- The identities of packages in directories are those of local packages, and they are equal only
for packages with one name and one version in one directory. -/
theorem distinguishes_ofDirectory [Whereabouts] (name version name' version' : String) {d d' : Path}
    (named : d.fault? = none) (named' : d'.fault? = none) :
    ∃ p p', ofDirectory (.text name) (.text version) d = .ok p ∧
      ofDirectory (.text name') (.text version') d' = .ok p' ∧
      Distinguish name version name' version' d d' p p' := by
  have byBytes : (⟨.text name, .text version, .text (localStart ++ d.resolve.toUri)⟩ : PackageId) =
      ⟨.text name', .text version', .text (localStart ++ d'.resolve.toUri)⟩ ↔
        name = name' ∧ version = version' ∧ d.resolve.SameBytes d'.resolve := by
    rw [mk.injEq, Value.text.injEq, Value.text.injEq, Value.text.injEq, String.append_right_inj,
      Path.toUri_eq_iff (Path.fault?_resolve named) (Path.fault?_resolve named')]
  refine ⟨_, _, ofDirectory_of_named name version named,
    ofDirectory_of_named name' version' named', ?_⟩
  exact
  { isLocal := ⟨isLocal?_localSource _ _ _, isLocal?_localSource _ _ _⟩
    eq_iff := fun h h' => by rw [byBytes, Path.sameBytes_iff_eq h.resolve h'.resolve]
    eq_iff_bytes := byBytes
    shares := fun q hp hp' => by
      have both := same_trans (same_symm hp) hp'
      rw [same_texts] at both
      obtain ⟨rfl, rfl, source⟩ := both
      rw [source] }

/-- A percent sign is encoded too, so an encoded letter is not taken for the letter. -/
theorem distinguishes_ofDirectory_percent :
    (Path.ofText "/ws/x/../é%41").fault? = none ∧ (Path.ofText "//ws/éA").fault? = none ∧
      ∃ p p', ofDirectory "app" "1.0.0" (Path.ofText "/ws/x/../é%41") = .ok p ∧
        ofDirectory "app" "1.0.0" (Path.ofText "//ws/éA") = .ok p' ∧
        Distinguish "app" "1.0.0" "app" "1.0.0" (Path.ofText "/ws/x/../é%41")
          (Path.ofText "//ws/éA") p p' ∧ p ≠ p' := by
  have named : (Path.ofText "/ws/x/../é%41").fault? = none := by decide
  have named' : (Path.ofText "//ws/éA").fault? = none := by decide
  obtain ⟨p, p', hp, hp', apart⟩ :=
    distinguishes_ofDirectory "app" "1.0.0" "app" "1.0.0" named named'
  refine ⟨named, named', p, p', hp, hp', apart, fun same => ?_⟩
  obtain ⟨-, -, directory⟩ :=
    (apart.eq_iff ⟨"/ws/x/../é%41", by decide⟩ ⟨"//ws/éA", by decide⟩).1 same
  exact absurd directory (by decide)

end PackageId

end UnusedDeps
