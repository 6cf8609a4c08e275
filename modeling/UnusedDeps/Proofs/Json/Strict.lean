import UnusedDeps.Proofs.Json.Held

/-!
# Artifacts are documents within limits

The reader of artifacts is that of documents with three more limits: unpaired halves of
surrogate pairs are refused, fewer lists and tables may be nested, and so may fewer
digits stand in front of a point. Each limit alone is a rule of the same reader. What is
read under stricter rules is read under laxer ones, with the same value, and what is
read under two limits is read under both together. Main statement: `artifact_eq_ok_iff`.
-/

namespace UnusedDeps.Json

/-! ### Texts -/

theorem codeEscape?_of_refused {policy : HalfPair} {cs : List Char} {p : Nat × List Char}
    (h : codeEscape? .refused cs = some p) : codeEscape? policy cs = some p := by
  unfold codeEscape? at h ⊢
  obtain ⟨⟨n, r⟩, hunit, h⟩ := Option.bind_eq_some_iff.1 h
  refine Option.bind_eq_some_iff.2 ⟨(n, r), hunit, ?_⟩
  dsimp only at h ⊢
  split at h
  · rename_i whole
    rwa [if_pos whole]
  rename_i half
  rw [if_neg half]
  split at h
  · cases h
  rename_i opens
  rw [if_neg opens]
  split at h
  · split at h
    · rename_i closes
      rwa [if_pos closes]
    · cases h
  · cases h

theorem escape?_of_refused {policy : HalfPair} {cs : List Char} {p : Nat × List Char}
    (h : escape? .refused cs = some p) : escape? policy cs = some p := by
  unfold escape? at h ⊢
  split at h
  case h_9 => exact codeEscape?_of_refused h
  all_goals exact h

theorem textAfter?_of_refused {policy : HalfPair} {fuel : Nat} {read cs : List Char}
    {p : String × List Char} (h : textAfter? .refused fuel read cs = some p) :
    textAfter? policy fuel read cs = some p := by
  induction fuel generalizing read cs with
  | zero => cases h
  | succ fuel ih =>
    cases cs with
    | nil => cases h
    | cons c cs =>
      unfold textAfter? at h ⊢
      split at h
      · rename_i quote
        rwa [if_pos quote]
      rename_i unclosed
      rw [if_neg unclosed]
      split at h
      · rename_i backslash
        rw [if_pos backslash]
        split at h
        · rename_i escaped
          rw [escape?_of_refused escaped]
          exact ih h
        · cases h
      rename_i bare
      rw [if_neg bare]
      split at h
      · cases h
      · rename_i shown
        rw [if_neg shown]
        exact ih h

/-! ### Laxer rules -/

/-- Whether the second rules take the texts and numbers that the first take. -/
structure IsLaxer (r r' : Rules) : Prop where
  halfPairs : r.halfPairs = r'.halfPairs ∨ r.halfPairs = .refused
  fractions : r.limitsFractions = r'.limitsFractions ∨ r'.limitsFractions = false

/-- Whether a list that may still be opened under the first rules may be opened under the second. -/
def HasRoom (r r' : Rules) (d d' : Nat) : Prop :=
  d < d' ∨ d = d' ∧ r.countsEmpty = r'.countsEmpty

section Laxer

variable {r r' : Rules}

theorem IsLaxer.textAfter? (laxer : IsLaxer r r') {fuel : Nat} {read cs : List Char}
    {p : String × List Char} (h : Json.textAfter? r.halfPairs fuel read cs = some p) :
    Json.textAfter? r'.halfPairs fuel read cs = some p := by
  rcases laxer.halfPairs with same | refused
  · rwa [← same]
  · rw [refused] at h
    exact textAfter?_of_refused h

theorem IsLaxer.number (laxer : IsLaxer r r') {cs : List Char} {p : Value × List Char}
    (h : Json.number r cs = .ok p) : Json.number r' cs = .ok p := by
  unfold Json.number at h ⊢
  obtain ⟨⟨digits, rest⟩, whole, h⟩ := bind_eq_ok.1 h
  refine bind_eq_ok.2 ⟨_, whole, ?_⟩
  dsimp only at h ⊢
  split at h
  · cases h
  · rename_i short
    have free : ¬(r'.limitsFractions && decide (maxDigits < digits.length)) = true := by
      rcases laxer.fractions with same | free
      · rwa [← same]
      · simp [free]
    rwa [if_neg free]

theorem IsLaxer.scalar (laxer : IsLaxer r r') {cs : List Char} {p : Value × List Char}
    (h : Json.scalar r cs = .ok p) : Json.scalar r' cs = .ok p := by
  unfold Json.scalar at h ⊢
  split at h
  · exact h
  · exact laxer.number h

/-- What follows the mark that ends a list or table without elements. -/
def ended? (close : Char) (cs : List Char) : Option (List Char) :=
  match skipSpace cs with
  | c :: r => if c = close then some r else none
  | [] => none

theorem emptyEnd?_eq_ok {close : Char} {d : Nat} {cs : List Char} {answer : Option (List Char)} :
    emptyEnd? r close d cs = .ok answer ↔
      ended? close cs = answer ∧ (d = 0 → ended? close cs ≠ none ∧ r.countsEmpty = false) := by
  have run : emptyEnd? r close d cs =
      if decide (d = 0) && ((ended? close cs).isNone || r.countsEmpty) then .error .tooDeep
      else .ok (ended? close cs) := rfl
  rw [run]
  by_cases top : d = 0 <;> cases ended? close cs <;> cases r.countsEmpty <;> simp [top]

/-- Where a list may still be opened there is an answer to whether it ends at once. -/
theorem HasRoom.emptyEnd? {d d' : Nat} (room : HasRoom r r' d d') {close : Char}
    {cs : List Char} {answer : Option (List Char)}
    (h : Json.emptyEnd? r close d cs = .ok answer) :
    Json.emptyEnd? r' close d' cs = .ok answer ∧
      (answer = none → HasRoom r r' (d - 1) (d' - 1)) := by
  rw [emptyEnd?_eq_ok] at h ⊢
  obtain ⟨rfl, counted⟩ := h
  rcases room with deeper | ⟨rfl, same⟩
  · refine ⟨⟨rfl, fun top => absurd top (by omega)⟩, fun none => .inl ?_⟩
    have inside : d ≠ 0 := fun top => (counted top).1 none
    omega
  · rw [← same]
    exact ⟨⟨rfl, counted⟩, fun _ => .inr ⟨rfl, same⟩⟩

theorem HasRoom.enclosed {d d' : Nat} (room : HasRoom r r' d d') {close : Char} {cs : List Char}
    {empty : Value} {inside inside' : Except ReadFault (Value × List Char)}
    {p : Value × List Char}
    (h : (match Json.emptyEnd? r close d cs with
      | .error e => .error e
      | .ok (some rest) => .ok (empty, rest)
      | .ok none => inside) = Except.ok p)
    (next : HasRoom r r' (d - 1) (d' - 1) → inside = .ok p → inside' = .ok p) :
    (match Json.emptyEnd? r' close d' cs with
      | .error e => .error e
      | .ok (some rest) => .ok (empty, rest)
      | .ok none => inside') = Except.ok p := by
  split at h
  · cases h
  · rename_i ended
    rwa [(room.emptyEnd? ended).1]
  · rename_i ended
    obtain ⟨ended, inner⟩ := room.emptyEnd? ended
    rw [ended]
    exact next (inner rfl) h

/-! ### Values under laxer rules -/

/-- Whether what is read in so many steps under the first rules is read under the second. -/
def ReadsAlike (r r' : Rules) (fuel : Nat) : Prop :=
  ∀ d d' cs p, HasRoom r r' d d' → value r fuel d cs = .ok p → value r' fuel d' cs = .ok p

def ListsAlike (r r' : Rules) (fuel : Nat) : Prop :=
  ∀ d d' read cs p, HasRoom r r' d d' → items r fuel d read cs = .ok p →
    items r' fuel d' read cs = .ok p

def TablesAlike (r r' : Rules) (fuel : Nat) : Prop :=
  ∀ d d' read cs p, HasRoom r r' d d' → fields r fuel d read cs = .ok p →
    fields r' fuel d' read cs = .ok p

variable {fuel : Nat}

theorem ReadsAlike.succ (laxer : IsLaxer r r') (lists : ListsAlike r r' fuel)
    (tables : TablesAlike r r' fuel) : ReadsAlike r r' (fuel + 1) := by
  intro d d' cs p room h
  unfold value at h ⊢
  split at h
  · obtain ⟨q, read, same⟩ := Option.map_eq_some_iff.1 (orRefuse_eq_ok.1 h)
    exact orRefuse_eq_ok.2 (Option.map_eq_some_iff.2 ⟨q, laxer.textAfter? read, same⟩)
  · exact room.enclosed h fun inner => lists _ _ _ _ _ inner
  · exact room.enclosed h fun inner => tables _ _ _ _ _ inner
  · exact laxer.scalar h

theorem ListsAlike.succ (values : ReadsAlike r r' fuel) (lists : ListsAlike r r' fuel) :
    ListsAlike r r' (fuel + 1) := by
  intro d d' read cs p room h
  unfold items at h ⊢
  split at h
  · cases h
  rename_i item
  rw [values d d' cs _ room item]
  dsimp only
  split at h
  · exact h
  · exact lists _ _ _ _ _ room h
  · cases h

theorem TablesAlike.succ (laxer : IsLaxer r r') (values : ReadsAlike r r' fuel)
    (tables : TablesAlike r r' fuel) : TablesAlike r r' (fuel + 1) := by
  intro d d' read cs p room h
  unfold fields at h ⊢
  split at h
  case h_2 => cases h
  split at h
  · cases h
  rename_i key
  rw [laxer.textAfter? key]
  dsimp only
  split at h
  case h_2 => cases h
  split at h
  · cases h
  rename_i item
  rw [values d d' _ _ room item]
  dsimp only
  split at h
  · exact h
  · exact tables _ _ _ _ _ room h
  · cases h

theorem alike_of_fuel (laxer : IsLaxer r r') (fuel : Nat) :
    ReadsAlike r r' fuel ∧ ListsAlike r r' fuel ∧ TablesAlike r r' fuel := by
  induction fuel with
  | zero => exact ⟨nofun, nofun, nofun⟩
  | succ fuel ih =>
    obtain ⟨values, lists, tables⟩ := ih
    exact ⟨.succ laxer lists tables, .succ values lists, .succ laxer values tables⟩

theorem wholeValue_eq_ok {cs : List Char} {v : Value} : wholeValue r cs = .ok v ↔
    ∃ rest, value r (2 * cs.length + 2) r.maxDepth (skipSpace cs) = .ok (v, rest) ∧
      skipSpace rest = [] := by
  unfold wholeValue
  cases value r (2 * cs.length + 2) r.maxDepth (skipSpace cs) with
  | error e => simp
  | ok p =>
    by_cases done : skipSpace p.2 = [] <;> simp [done, Prod.ext_iff]

/-- What is read under stricter rules is read under laxer ones. -/
theorem read_of_laxer (laxer : IsLaxer r r') (room : HasRoom r r' r.maxDepth r'.maxDepth)
    {s : String} {v : Value} (h : read r s = .ok v) : read r' s = .ok v := by
  obtain ⟨rest, run, done⟩ := wholeValue_eq_ok.1 h
  exact wholeValue_eq_ok.2 ⟨rest, (alike_of_fuel laxer _).1 _ _ _ _ room run, done⟩

end Laxer

/-! ### Two limits together -/

/-- Whether each rule for texts and numbers is that of one of two others. -/
structure IsEither (m a b : Rules) : Prop where
  halfPairs : m.halfPairs = a.halfPairs ∨ m.halfPairs = b.halfPairs
  fractions : m.limitsFractions = a.limitsFractions ∨ m.limitsFractions = b.limitsFractions

/-- Whether as many lists may be opened as under one of two other rules. -/
def HasEitherRoom (m a b : Rules) (d da db : Nat) : Prop :=
  m.countsEmpty = a.countsEmpty ∧ d = da ∨ m.countsEmpty = b.countsEmpty ∧ d = db

section Either

variable {m a b : Rules}

theorem IsEither.textAfter? (either : IsEither m a b) {fuel : Nat} {read cs : List Char}
    {p : String × List Char} (ha : Json.textAfter? a.halfPairs fuel read cs = some p)
    (hb : Json.textAfter? b.halfPairs fuel read cs = some p) :
    Json.textAfter? m.halfPairs fuel read cs = some p := by
  rcases either.halfPairs with same | same
  · rwa [same]
  · rwa [same]

theorem scalar_congr {r r' : Rules} (same : r.limitsFractions = r'.limitsFractions) :
    scalar r = scalar r' := by
  funext cs
  unfold scalar number
  rw [same]

theorem IsEither.scalar (either : IsEither m a b) {cs : List Char} {p : Value × List Char}
    (ha : Json.scalar a cs = .ok p) (hb : Json.scalar b cs = .ok p) :
    Json.scalar m cs = .ok p := by
  rcases either.fractions with same | same
  · rwa [scalar_congr same]
  · rwa [scalar_congr same]

theorem HasEitherRoom.emptyEnd? {d da db : Nat} (room : HasEitherRoom m a b d da db)
    {close : Char} {cs : List Char} {answer : Option (List Char)}
    (ha : Json.emptyEnd? a close da cs = .ok answer)
    (hb : Json.emptyEnd? b close db cs = .ok answer) :
    Json.emptyEnd? m close d cs = .ok answer := by
  rw [emptyEnd?_eq_ok] at ha hb ⊢
  rcases room with ⟨same, rfl⟩ | ⟨same, rfl⟩
  · rwa [same]
  · rwa [same]

theorem HasEitherRoom.pred {d da db : Nat} (room : HasEitherRoom m a b d da db) :
    HasEitherRoom m a b (d - 1) (da - 1) (db - 1) :=
  room.imp (And.imp_right (congrArg (· - 1))) (And.imp_right (congrArg (· - 1)))

/-- Whether rules `m`, each that of `a` or `b`, and laxer rules `c` have room where these have. -/
structure Rooms (m a b c : Rules) (d da db dc : Nat) : Prop where
  either : HasEitherRoom m a b d da db
  first : HasRoom a c da dc
  second : HasRoom b c db dc

variable {c : Rules}

/-- Whether what is read in so many steps under each of two rules is read under both together. -/
def ReadsBoth (m a b c : Rules) (fuel : Nat) : Prop :=
  ∀ d da db dc cs p, Rooms m a b c d da db dc → value a fuel da cs = .ok p →
    value b fuel db cs = .ok p → value m fuel d cs = .ok p

def ListsBoth (m a b c : Rules) (fuel : Nat) : Prop :=
  ∀ d da db dc read cs p, Rooms m a b c d da db dc → items a fuel da read cs = .ok p →
    items b fuel db read cs = .ok p → items m fuel d read cs = .ok p

def TablesBoth (m a b c : Rules) (fuel : Nat) : Prop :=
  ∀ d da db dc read cs p, Rooms m a b c d da db dc → fields a fuel da read cs = .ok p →
    fields b fuel db read cs = .ok p → fields m fuel d read cs = .ok p

variable {fuel : Nat}

theorem Rooms.emptyEnd? {d da db dc : Nat} (rooms : Rooms m a b c d da db dc) {close : Char}
    {cs : List Char} {answer answer' : Option (List Char)}
    (ha : Json.emptyEnd? a close da cs = .ok answer)
    (hb : Json.emptyEnd? b close db cs = .ok answer') :
    answer = answer' ∧ Json.emptyEnd? m close d cs = .ok answer ∧
      (answer = none → Rooms m a b c (d - 1) (da - 1) (db - 1) (dc - 1)) := by
  have same : answer = answer' := (emptyEnd?_eq_ok.1 ha).1.symm.trans (emptyEnd?_eq_ok.1 hb).1
  subst same
  refine ⟨rfl, rooms.either.emptyEnd? ha hb, fun none => ⟨rooms.either.pred, ?_, ?_⟩⟩
  · exact (rooms.first.emptyEnd? ha).2 none
  · exact (rooms.second.emptyEnd? hb).2 none

theorem Rooms.enclosed {d da db dc : Nat} (rooms : Rooms m a b c d da db dc) {close : Char}
    {cs : List Char} {empty : Value} {inside insideA insideB : Except ReadFault (Value × List Char)}
    {p : Value × List Char}
    (ha : (match Json.emptyEnd? a close da cs with
      | .error e => .error e
      | .ok (some rest) => .ok (empty, rest)
      | .ok none => insideA) = Except.ok p)
    (hb : (match Json.emptyEnd? b close db cs with
      | .error e => .error e
      | .ok (some rest) => .ok (empty, rest)
      | .ok none => insideB) = Except.ok p)
    (next : Rooms m a b c (d - 1) (da - 1) (db - 1) (dc - 1) →
      insideA = .ok p → insideB = .ok p → inside = .ok p) :
    (match Json.emptyEnd? m close d cs with
      | .error e => .error e
      | .ok (some rest) => .ok (empty, rest)
      | .ok none => inside) = Except.ok p := by
  split at ha
  · cases ha
  · rename_i enda
    split at hb
    · cases hb
    · rename_i endb
      rwa [(rooms.emptyEnd? enda endb).2.1]
    · rename_i endb
      cases (rooms.emptyEnd? enda endb).1
  · rename_i enda
    split at hb
    · cases hb
    · rename_i endb
      cases (rooms.emptyEnd? enda endb).1
    · rename_i endb
      obtain ⟨-, ended, inner⟩ := rooms.emptyEnd? enda endb
      rw [ended]
      exact next (inner rfl) ha hb

theorem Rooms.value_eq {d da db dc : Nat} (rooms : Rooms m a b c d da db dc)
    (laxa : IsLaxer a c) (laxb : IsLaxer b c) {cs : List Char} {p q : Value × List Char}
    (ha : value a fuel da cs = .ok p) (hb : value b fuel db cs = .ok q) : p = q := by
  have first := (alike_of_fuel laxa fuel).1 _ _ _ _ rooms.first ha
  have second := (alike_of_fuel laxb fuel).1 _ _ _ _ rooms.second hb
  exact Except.ok.inj (first.symm.trans second)

theorem textAfter?_eq (laxa : IsLaxer a c) (laxb : IsLaxer b c) {read cs : List Char}
    {p q : String × List Char} (ha : textAfter? a.halfPairs fuel read cs = some p)
    (hb : textAfter? b.halfPairs fuel read cs = some q) : p = q :=
  Option.some.inj ((laxa.textAfter? ha).symm.trans (laxb.textAfter? hb))

theorem ReadsBoth.succ (either : IsEither m a b) (laxa : IsLaxer a c) (laxb : IsLaxer b c)
    (lists : ListsBoth m a b c fuel) (tables : TablesBoth m a b c fuel) :
    ReadsBoth m a b c (fuel + 1) := by
  intro d da db dc cs p rooms ha hb
  unfold value at ha hb ⊢
  revert hb
  split at ha <;> intro hb
  · obtain ⟨q, reada, same⟩ := Option.map_eq_some_iff.1 (orRefuse_eq_ok.1 ha)
    obtain ⟨q', readb, -⟩ := Option.map_eq_some_iff.1 (orRefuse_eq_ok.1 hb)
    obtain rfl := textAfter?_eq laxa laxb reada readb
    exact orRefuse_eq_ok.2 (Option.map_eq_some_iff.2 ⟨q, either.textAfter? reada readb, same⟩)
  · exact rooms.enclosed ha hb fun inner => lists _ _ _ _ _ _ _ inner
  · exact rooms.enclosed ha hb fun inner => tables _ _ _ _ _ _ _ inner
  · exact either.scalar ha hb

theorem ListsBoth.succ (laxa : IsLaxer a c) (laxb : IsLaxer b c)
    (values : ReadsBoth m a b c fuel) (lists : ListsBoth m a b c fuel) :
    ListsBoth m a b c (fuel + 1) := by
  intro d da db dc read cs p rooms ha hb
  unfold items at ha hb ⊢
  split at ha
  · cases ha
  rename_i itema
  split at hb
  · cases hb
  rename_i itemb
  cases rooms.value_eq laxa laxb itema itemb
  rw [values d da db dc cs _ rooms itema itemb]
  dsimp only at hb ⊢
  revert hb
  split at ha <;> intro hb
  · exact ha
  · exact lists _ _ _ _ _ _ _ rooms ha hb
  · cases ha

theorem TablesBoth.succ (either : IsEither m a b) (laxa : IsLaxer a c) (laxb : IsLaxer b c)
    (values : ReadsBoth m a b c fuel) (tables : TablesBoth m a b c fuel) :
    TablesBoth m a b c (fuel + 1) := by
  intro d da db dc read cs p rooms ha hb
  unfold fields at ha hb ⊢
  revert hb
  split at ha <;> intro hb
  case h_2 => cases ha
  split at ha
  · cases ha
  rename_i keya
  split at hb
  · cases hb
  rename_i keyb
  cases textAfter?_eq laxa laxb keya keyb
  rw [either.textAfter? keya keyb]
  dsimp only at hb ⊢
  revert hb
  split at ha <;> intro hb
  case h_2 => cases ha
  split at ha
  · cases ha
  rename_i itema
  split at hb
  · cases hb
  rename_i itemb
  cases rooms.value_eq laxa laxb itema itemb
  rw [values d da db dc _ _ rooms itema itemb]
  dsimp only at hb ⊢
  revert hb
  split at ha <;> intro hb
  · exact ha
  · exact tables _ _ _ _ _ _ _ rooms ha hb
  · cases ha

theorem both_of_fuel (either : IsEither m a b) (laxa : IsLaxer a c) (laxb : IsLaxer b c)
    (fuel : Nat) :
    ReadsBoth m a b c fuel ∧ ListsBoth m a b c fuel ∧ TablesBoth m a b c fuel := by
  induction fuel with
  | zero => exact ⟨nofun, nofun, nofun⟩
  | succ fuel ih =>
    obtain ⟨values, lists, tables⟩ := ih
    exact ⟨.succ either laxa laxb lists tables, .succ laxa laxb values lists,
      .succ either laxa laxb values tables⟩

/-- What is read under two rules is read under both together. -/
theorem read_of_both (either : IsEither m a b) (laxa : IsLaxer a c) (laxb : IsLaxer b c)
    (rooms : Rooms m a b c m.maxDepth a.maxDepth b.maxDepth c.maxDepth) {s : String} {v w : Value}
    (ha : read a s = .ok v) (hb : read b s = .ok w) : read m s = .ok v := by
  have same : v = w := Except.ok.inj
    ((read_of_laxer laxa rooms.first ha).symm.trans (read_of_laxer laxb rooms.second hb))
  subst same
  -- Under the laxer rules both runs are one, so they leave the same rest.
  obtain ⟨resta, runa, done⟩ := wholeValue_eq_ok.1 ha
  obtain ⟨restb, runb, -⟩ := wholeValue_eq_ok.1 hb
  cases rooms.value_eq laxa laxb runa runb
  have run := (both_of_fuel either laxa laxb _).1 _ _ _ _ _ _ rooms runa runb
  exact wholeValue_eq_ok.2 ⟨resta, run, done⟩

end Either

/-! ### The limits of artifacts -/

/-- The rules of documents where unpaired halves of surrogate pairs are refused. -/
def pairedRules : Rules := { documentRules with halfPairs := .refused }

/-- The rules of documents where as few lists and tables may be nested as in artifacts. -/
def shallowRules : Rules := { documentRules with maxDepth := 200, countsEmpty := false }

/-- The rules of documents where the digits in front of a point are limited. -/
def shortRules : Rules := { documentRules with limitsFractions := true }

/-- The rules with the first limit and the last. -/
def pairedShortRules : Rules := { documentRules with halfPairs := .refused, limitsFractions := true }

/-- Whether a text is read under each limit of artifacts alone. -/
structure IsWithinLimits (s : String) : Prop where
  paired : ∃ v, read pairedRules s = .ok v
  shallow : ∃ v, read shallowRules s = .ok v
  short : ∃ v, read shortRules s = .ok v

/-- An artifact is a document within the limits, and has the same value. -/
theorem artifact_eq_ok_iff {s : String} {v : Value} :
    artifact s = .ok v ↔ document s = .ok v ∧ IsWithinLimits s := by
  constructor
  · intro h
    have paired : IsLaxer artifactRules pairedRules := ⟨.inl rfl, .inr rfl⟩
    have shallow : IsLaxer artifactRules shallowRules := ⟨.inr rfl, .inr rfl⟩
    have short : IsLaxer artifactRules shortRules := ⟨.inr rfl, .inl rfl⟩
    have document : IsLaxer artifactRules documentRules := ⟨.inr rfl, .inr rfl⟩
    exact ⟨read_of_laxer document (.inl (by decide)) h,
      ⟨v, read_of_laxer paired (.inl (by decide)) h⟩,
      ⟨v, read_of_laxer shallow (.inr ⟨rfl, rfl⟩) h⟩,
      ⟨v, read_of_laxer short (.inl (by decide)) h⟩⟩
  · rintro ⟨h, ⟨w, hpaired⟩, ⟨_, hshallow⟩, ⟨_, hshort⟩⟩
    have paired : IsLaxer pairedRules documentRules := ⟨.inr rfl, .inl rfl⟩
    have shallow : IsLaxer shallowRules documentRules := ⟨.inl rfl, .inl rfl⟩
    have short : IsLaxer shortRules documentRules := ⟨.inl rfl, .inr rfl⟩
    have pairedShort : IsLaxer pairedShortRules documentRules := ⟨.inr rfl, .inr rfl⟩
    have two : IsEither pairedShortRules pairedRules shortRules := ⟨.inl rfl, .inr rfl⟩
    have three : IsEither artifactRules pairedShortRules shallowRules := ⟨.inl rfl, .inl rfl⟩
    -- Two limits are joined first, and then the third.
    have hpairedShort : read pairedShortRules s = .ok w :=
      read_of_both two paired short ⟨.inl ⟨rfl, rfl⟩, .inr ⟨rfl, rfl⟩, .inr ⟨rfl, rfl⟩⟩
        hpaired hshort
    have all : read artifactRules s = .ok w :=
      read_of_both three pairedShort shallow
        ⟨.inr ⟨rfl, rfl⟩, .inr ⟨rfl, rfl⟩, .inl (by decide)⟩ hpairedShort hshallow
    have value : read documentRules s = .ok w :=
      read_of_laxer paired (.inr ⟨rfl, rfl⟩) hpaired
    cases value.symm.trans h
    exact all

end UnusedDeps.Json
