import Mathlib.Data.List.TakeWhile
import UnusedDeps.Invocation.Log
import UnusedDeps.Options.Read
import UnusedDeps.Proofs.Options.Arguments
import UnusedDeps.Proofs.Schema

/-!
# Numbers of jobs

A number of jobs is checked as it is given, but passed on and read again without
the white space around it. The white space that may stand around an integer is
white space of texts, and an integer starts and ends with none, so what is kept is
the same integer: it passes the check again, the build is given it, and the units
of a log are replayed by that many workers, or by one. Main statement:
`staysUsable_checkJobs`.
-/

namespace UnusedDeps

namespace Text

/-! ### Trimmed characters -/

/-- Whether characters neither start nor end with one that satisfies `p`. -/
structure IsTrimmed (p : Char → Bool) (cs : List Char) : Prop where
  first : ∀ c ∈ cs.head?, p c = false
  last : ∀ c ∈ cs.getLast?, p c = false

theorem IsTrimmed.cons {p : Char → Bool} {c : Char} {cs : List Char} (hc : p c = false)
    (h : IsTrimmed p cs) : IsTrimmed p (c :: cs) where
  first := by simpa using hc
  last := by
    cases cs with
    | nil => simpa using hc
    | cons d cs =>
      rw [List.getLast?_cons_cons]
      exact h.last

theorem IsTrimmed.mono {p q : Char → Bool} {cs : List Char} (h : IsTrimmed q cs)
    (sub : ∀ c, p c = true → q c = true) : IsTrimmed p cs := by
  have free {c : Char} (hc : q c = false) : p c = false := by
    by_contra hp
    rw [sub c (by simpa using hp)] at hc
    cases hc
  exact ⟨fun c hc => free (h.first c hc), fun c hc => free (h.last c hc)⟩

theorem dropWhile_of_first {p : Char → Bool} {cs : List Char} (h : ∀ c ∈ cs.head?, p c = false) :
    cs.dropWhile p = cs := by
  cases cs with
  | nil => rfl
  | cons c cs => rw [List.dropWhile_cons, h c rfl, if_neg Bool.false_ne_true]

theorem trimBoth_append {p : Char → Bool} {front cs back : List Char} (h : IsTrimmed p cs)
    (hfront : ∀ c ∈ front, p c = true) (hback : ∀ c ∈ back, p c = true) :
    trimBoth p (front ++ (cs ++ back)) = cs := by
  have drop {margin : List Char} (hmargin : ∀ c ∈ margin, p c = true) (rest : List Char) :
      (margin ++ rest).dropWhile p = rest.dropWhile p := List.dropWhile_append_of_pos hmargin
  have behind : ∀ c ∈ back.reverse, p c = true := fun c hc => hback c (List.mem_reverse.1 hc)
  have last : ∀ c ∈ cs.reverse.head?, p c = false := by
    rw [List.head?_reverse]
    exact h.last
  rw [trimBoth, drop hfront]
  cases cs with
  | nil =>
    have none : back.dropWhile p = [] := List.dropWhile_eq_nil_iff.2 hback
    rw [List.nil_append, none]
    rfl
  | cons c cs =>
    have stays : (c :: cs ++ back).dropWhile p = c :: cs ++ back := dropWhile_of_first h.first
    rw [stays, List.reverse_append, drop behind, dropWhile_of_first last, List.reverse_reverse]

theorem trimBoth_of_isTrimmed {p : Char → Bool} {cs : List Char} (h : IsTrimmed p cs) :
    trimBoth p cs = cs := by
  have alone := trimBoth_append h (List.forall_mem_nil _) (List.forall_mem_nil _)
  rwa [List.nil_append, List.append_nil] at alone

/-- Characters are what is left of them between two margins. -/
theorem exists_margins (p : Char → Bool) (cs : List Char) : ∃ front back,
    cs = front ++ (trimBoth p cs ++ back) ∧ (∀ c ∈ front, p c = true) ∧
      ∀ c ∈ back, p c = true := by
  refine ⟨cs.takeWhile p, ((cs.dropWhile p).reverse.takeWhile p).reverse, ?_,
    fun c hc => List.mem_takeWhile_imp hc,
    fun c hc => List.mem_takeWhile_imp (List.mem_reverse.1 hc)⟩
  rw [trimBoth, ← List.reverse_append, List.takeWhile_append_dropWhile, List.reverse_reverse,
    List.takeWhile_append_dropWhile]

end Text

/-! ### The ends of an integer -/

/-- A digit of any script is no white space. -/
theorem isBlank_of_digitValue? {c : Char} {d : Nat} (h : digitValue? c = some d) :
    Text.isBlank c = false := by
  have apart : ∀ start ∈ digitZeros, ∀ range ∈ Text.blankRanges,
      start + 9 < range.1 ∨ range.2 < start := by decide
  obtain ⟨start, found, -⟩ := Option.map_eq_some_iff.1 h
  have hstart := List.mem_of_find?_eq_some found
  have within := List.find?_some found
  simp only [Bool.and_eq_true, decide_eq_true_eq] at within
  refine List.any_eq_false.2 fun range hrange blank => ?_
  simp only [Bool.and_eq_true, decide_eq_true_eq] at blank
  have := apart start hstart range hrange
  omega

theorem isBlank_of_isMargin {c : Char} (h : isMargin c = true) : Text.isBlank c = true := by
  unfold isMargin at h
  split at h
  · simp only [Bool.or_eq_true, Bool.and_eq_true, decide_eq_true_eq] at h
    rcases h with rfl | control
    · decide
    · refine List.any_eq_true.2 ⟨(0x09, 0x0d), List.mem_cons_self, ?_⟩
      simpa using control
  · exact h

/-- Separated digits start and end with a digit. -/
theorem isTrimmed_of_separatedDigits? {cs : List Char} {ds : List Nat}
    (h : separatedDigits? cs = some ds) : Text.IsTrimmed Text.isBlank cs := by
  have underscore : Text.isBlank '_' = false := by decide
  have none : Text.IsTrimmed Text.isBlank [] := ⟨nofun, nofun⟩
  fun_induction separatedDigits? cs generalizing ds with
  | case1 => cases h
  | case2 c =>
    obtain ⟨d, hd, -⟩ := Option.map_eq_some_iff.1 h
    exact none.cons (isBlank_of_digitValue? hd)
  | case3 c r ih =>
    obtain ⟨d, hd, h⟩ := Option.bind_eq_some_iff.1 h
    obtain ⟨rest, hrest, -⟩ := Option.bind_eq_some_iff.1 h
    exact ((ih hrest).cons underscore).cons (isBlank_of_digitValue? hd)
  | case4 c d r _ ih =>
    obtain ⟨n, hn, h⟩ := Option.bind_eq_some_iff.1 h
    obtain ⟨rest, hrest, -⟩ := Option.bind_eq_some_iff.1 h
    exact (ih hrest).cons (isBlank_of_digitValue? hn)

theorem isTrimmed_of_separatedNat? {cs : List Char} {n : Nat} (h : separatedNat? cs = some n) :
    Text.IsTrimmed Text.isBlank cs := by
  obtain ⟨ds, hds, -⟩ := Option.bind_eq_some_iff.1 h
  exact isTrimmed_of_separatedDigits? hds

theorem isTrimmed_of_signedInt? {cs : List Char} {n : Int} (h : signedInt? cs = some n) :
    Text.IsTrimmed Text.isBlank cs := by
  unfold signedInt? at h
  split at h
  all_goals
    obtain ⟨_, h, -⟩ := Option.map_eq_some_iff.1 h
    obtain ⟨m, hm, -⟩ := Option.bind_eq_some_iff.1 h
  · exact (isTrimmed_of_separatedNat? hm).cons (by decide)
  · exact (isTrimmed_of_separatedNat? hm).cons (by decide)
  · exact isTrimmed_of_separatedNat? hm

/-- A text is that of an integer when it is one between two margins. -/
theorem integer?_eq_some_iff {s : String} {n : Int} : integer? s = some n ↔
    ∃ front cs back, s.toList = front ++ (cs ++ back) ∧ (∀ c ∈ front, isMargin c = true) ∧
      (∀ c ∈ back, isMargin c = true) ∧ signedInt? cs = some n := by
  constructor
  · intro h
    obtain ⟨front, back, split, hfront, hback⟩ := Text.exists_margins isMargin s.toList
    exact ⟨front, _, back, split, hfront, hback, h⟩
  · rintro ⟨front, cs, back, split, hfront, hback, h⟩
    have trimmed := (isTrimmed_of_signedInt? h).mono fun c => isBlank_of_isMargin
    rw [integer?, split, Text.trimBoth_append trimmed hfront hback, h]

/-- The white space around an integer is no part of it. -/
theorem integer?_strip {s : String} {n : Int} (h : integer? s = some n) :
    integer? (Text.strip s) = some n ∧ Text.strip (Text.strip s) = Text.strip s := by
  obtain ⟨front, cs, back, split, hfront, hback, hcs⟩ := integer?_eq_some_iff.1 h
  have trimmed := isTrimmed_of_signedInt? hcs
  have kept : Text.strip s = String.ofList cs := by
    rw [Text.strip, split, Text.trimBoth_append trimmed
      (fun c hc => isBlank_of_isMargin (hfront c hc))
      fun c hc => isBlank_of_isMargin (hback c hc)]
  rw [kept]
  refine ⟨integer?_eq_some_iff.2 ⟨[], cs, [], ?_, List.forall_mem_nil _, List.forall_mem_nil _,
    hcs⟩, ?_⟩
  · rw [String.toList_ofList, List.nil_append, List.append_nil]
  · rw [Text.strip, String.toList_ofList, Text.trimBoth_of_isTrimmed trimmed]

namespace RunOptions

theorem checkJobs_eq_ok {s t : String} :
    checkJobs s = .ok t ↔ Text.strip s = t ∧ ∃ n, integer? s = some n := by
  unfold checkJobs
  cases integer? s with
  | none => simp [Checked.refuse, Checked.fault]
  | some n => simp

/-! ### Workers -/

theorem isTooFew_of_pos {n : Int} (h : 1 ≤ n) : isTooFew (.int n) = .ok false := by
  show Except.ok (decide (n ≤ 0)) = _
  rw [decide_eq_false (by omega)]

theorem jobCount_eq_ok {o : RunOptions} {s : String} {n : Int} (ho : o.jobs = some s)
    (hs : integer? s = some n) : o.jobCount = .ok (.int (max n 1)) := by
  simp only [jobCount, ho, hs]

/-- Whether a text is passed on as the number of jobs, in the place of a flag and its value, by every
build that is told of it; only a number of times to talk below all machine integers keeps a build
from being told anything. -/
def IsPassedOn (s : String) : Prop :=
  ∀ o : RunOptions, o.jobs = some s →
    (∃ before after read, o.checkArgs = .ok (before ++ "--jobs" :: s :: after) ∧
      ofFlags? (before.drop 3) = some read ∧ read.jobs = none) ∨
    (o.verbose < -(twoPow 63 : Int) ∧ o.checkArgs = .error .tooLarge)

/-- Whether a text that is kept as the number of jobs can be used as the integer that it was
accepted for. -/
structure StaysUsable (s : String) (n : Int) : Prop where
  denotes : integer? s = some n
  fixed : checkJobs s = .ok s
  passedOn : IsPassedOn s
  /-- There are that many workers, or one, and the replay starts with them. -/
  counted : ∀ o : RunOptions, o.jobs = some s → o.jobCount = .ok (.int (max n 1)) ∧
    1 ≤ max n 1 ∧ isTooFew (.int (max n 1)) = .ok false

theorem isPassedOn (s : String) : IsPassedOn s := by
  intro o ho
  by_cases small : o.verbose < -(twoPow 63 : Int)
  · refine .inr ⟨small, ?_⟩
    rw [checkArgs, verboseArgs, if_pos small]
    rfl
  obtain ⟨talk, htalk⟩ := exists_verboseArgs (Int.not_lt.1 small)
  refine .inl ⟨["check", "--message-format", "short"] ++ repeated "--package" o.packages ++
    flag "--workspace" o.workspace ++ repeated "--exclude" o.exclude, ?_⟩
  refine ⟨o.targetArgs ++ flag "--release" o.release ++ valued "--profile" o.profile ++
    o.featureArgs ++ valued "--target" o.target ++
    valued "--target-dir" (o.targetDir.map (·.text)) ++ o.manifestArgs ++ talk ++
    flag "--quiet" o.quiet, { packages := o.packages, workspace := o.workspace,
                              exclude := o.exclude }, ?_, ?_, rfl⟩
  · rw [checkArgs, htalk, ho]
    simp only [List.append_assoc]
    rfl
  · simp only [List.append_assoc, List.cons_append, List.nil_append, List.drop_succ_cons,
      List.drop_zero, ofFlags?]
    rw [← List.append_nil (repeated "--exclude" o.exclude),
      readFlags_repeated _ _ "--package" rfl, readFlags_flag _ _ "--workspace" rfl,
      readFlags_repeated _ _ "--exclude" rfl]
    rfl

/-- A number of jobs that is accepted stays usable without the white space around it. -/
theorem staysUsable_checkJobs {s t : String} (h : checkJobs s = .ok t) :
    t = Text.strip s ∧ ∃ n, integer? s = some n ∧ StaysUsable t n := by
  obtain ⟨rfl, n, hn⟩ := checkJobs_eq_ok.1 h
  obtain ⟨again, fixed⟩ := integer?_strip hn
  refine ⟨rfl, n, hn, ?_⟩
  exact
  { denotes := again
    fixed := checkJobs_eq_ok.2 ⟨fixed, n, again⟩
    passedOn := isPassedOn _
    counted := fun o ho =>
      ⟨jobCount_eq_ok ho again, Int.le_max_right n 1, isTooFew_of_pos (Int.le_max_right n 1)⟩ }

/-- A number in Arabic digits between white space of two kinds. -/
theorem staysUsable_arabicJobs : checkJobs "\u3000-٠_٣ \t" = .ok "-٠_٣" ∧
    StaysUsable "-٠_٣" (-3) := by
  have accepted : checkJobs "\u3000-٠_٣ \t" = .ok "-٠_٣" := by decide
  obtain ⟨-, n, hn, usable⟩ := staysUsable_checkJobs accepted
  have count : integer? "\u3000-٠_٣ \t" = some (-3) := by decide
  rw [count] at hn
  cases hn
  exact ⟨accepted, usable⟩

end RunOptions

end UnusedDeps
