import UnusedDeps.Shell.Name
import UnusedDeps.Text.Blank

/-!
# Patterns of texts

A pattern is made of characters, some of which are quoted. Of the others, `?`
stands for any character, `*` for any text, and a set in brackets for one of its
members or, after `!`, for one that is no member. Brackets that are not closed
stand for themselves. Main statements: a pattern of quoted characters has exactly
one text, and `*` has all; reading a text once tells whether it has a pattern.
-/

namespace UnusedDeps.Shell

/-- A character that may have a meaning in a pattern, unless it is quoted. -/
structure Glyph where
  char : Char
  quoted : Bool
  deriving DecidableEq, Repr

namespace Pattern

/-- A member of a set of characters. -/
inductive Member where
  | range (low high : Char)
  | named (name : String)
  deriving DecidableEq, Repr

/-- A part of a pattern. -/
inductive Element where
  | char (c : Char)
  | any
  | many
  | set (inverted : Bool) (members : List Member)
  deriving DecidableEq, Repr

/-! ### Sets -/

/-- Whether an ASCII character can be seen. -/
def isVisible (c : Char) : Bool := '!' ≤ c && c ≤ '~'

/-- The named sets of characters. -/
def classes : List (String × (Char → Bool)) :=
  [("alnum", Char.isAlphanum),
    ("alpha", Char.isAlpha),
    ("blank", fun c => c = ' ' || c = '\t'),
    ("cntrl", fun c => c < ' ' || c = '\x7f'),
    ("digit", isDigit),
    ("graph", isVisible),
    ("lower", Char.isLower),
    ("print", fun c => c = ' ' || isVisible c),
    ("punct", fun c => isVisible c && !c.isAlphanum),
    ("space", isMargin),
    ("upper", Char.isUpper),
    ("xdigit", fun c => (digit? 16 c).isSome)]

def Member.contains (c : Char) : Member → Bool
  | .range low high => low ≤ c && c ≤ high
  | .named name => ((classes.lookup name).map fun p => p c).getD false

/-- Whether a character stands for itself without quotes. -/
def isBare (c : Char) (g : Glyph) : Bool := g.char = c && !g.quoted

/-- The named set behind an opening bracket. -/
def class? (r : List Glyph) : Option String :=
  (classes.map (·.1)).find? fun name =>
    (":" ++ name ++ ":]").toList.map (fun c => (⟨c, false⟩ : Glyph)) |>.isPrefixOf r

/-- The member that starts with a character, and the number of characters behind it that it
takes. -/
def memberAt (g : Glyph) (r : List Glyph) : Member × Nat :=
  let single : Member × Nat := (.range g.char g.char, 0)
  match (if isBare '[' g then class? r else none), r with
  | some name, _ => (.named name, name.length + 3)
  | none, d :: h :: _ =>
    if isBare '-' d && !isBare ']' h then (.range g.char h.char, 2) else single
  | none, _ => single

/-- The members of a set, after others with the last one first, and the number of characters up to its
end, of which `taken` have been read; the first `skip` of the characters left belong to the last
member. -/
def membersAfter (ms : List Member) (taken : Nat) :
    Nat → Bool → List Glyph → Option (List Member × Nat)
  | _, _, [] => none
  | skip + 1, isFirst, _ :: r => membersAfter ms (taken + 1) skip isFirst r
  | 0, isFirst, g :: r =>
    if isBare ']' g && !isFirst then some (ms.reverse, taken + 1)
    else membersAfter ((memberAt g r).1 :: ms) (taken + 1) (memberAt g r).2 false r

/-- The members of a set and the number of characters up to its end, the first of which does not end
it. -/
def members (r : List Glyph) : Option (List Member × Nat) := membersAfter [] 0 0 true r

/-- The set behind an opening bracket, and the number of characters that it takes. -/
def set? (r : List Glyph) : Option (Element × Nat) :=
  match r with
  | g :: rest =>
    if isBare '!' g then (members rest).map fun m => (.set true m.1, m.2 + 1)
    else (members r).map fun m => (.set false m.1, m.2)
  | [] => none

/-! ### Patterns -/

/-- The characters with those quoted that stand behind a backslash, after others with the last one
first. -/
def escapedAfter (before : List Glyph) : List Glyph → List Glyph
  | [] => before.reverse
  | [g] => (g :: before).reverse
  | g :: h :: r =>
    if isBare '\\' g then escapedAfter (⟨h.char, true⟩ :: before) r
    else escapedAfter (g :: before) (h :: r)

/-- The element that a character starts, in front of others, and how many of those belong to it. -/
def elementAt (g : Glyph) (r : List Glyph) : Element × Nat :=
  if isBare '?' g then (.any, 0)
  else if isBare '*' g then (.many, 0)
  else (if isBare '[' g then set? r else none).getD (.char g.char, 0)

/-- The elements of a pattern, after others with the last one first; the first `skip` characters belong
to the last element. -/
def elementsAfter (before : List Element) : Nat → List Glyph → List Element
  | _, [] => before.reverse
  | skip + 1, _ :: r => elementsAfter before skip r
  | 0, g :: r => elementsAfter ((elementAt g r).1 :: before) (elementAt g r).2 r

/-- The pattern that characters make. -/
def ofGlyphs (gs : List Glyph) : List Element := elementsAfter [] 0 (escapedAfter [] gs)

/-- Whether an element stands for any text. -/
def Element.isMany : Element → Bool
  | .many => true
  | _ => false

def Element.has (c : Char) : Element → Bool
  | .char d => d = c
  | .any => true
  | .many => false
  | .set inverted ms => ms.any (Member.contains c) ≠ inverted

/-- Whether a text or one of its ends has a property. -/
def anyEnd (p : List Char → Bool) : List Char → Bool
  | [] => p []
  | c :: r => p (c :: r) || anyEnd p r

def fits : List Element → List Char → Bool
  | [], cs => cs.isEmpty
  | .many :: es, cs => anyEnd (fits es) cs
  | e :: es, cs =>
    match cs with
    | d :: r => e.has d && fits es r
    | [] => false

/-- Whether a character has a meaning in a pattern when it is not quoted. -/
def isWild (c : Char) : Bool := c = '*' || c = '?' || c = '['

/-- Whether characters of a word have a meaning in a pattern. -/
def isPattern (gs : List Glyph) : Bool :=
  (gs.any fun g => isWild g.char && !g.quoted) && (ofGlyphs gs).any fun
    | .char _ => false
    | _ => true

/-! ### Texts of patterns -/

theorem anyEnd_isEmpty (cs : List Char) : anyEnd List.isEmpty cs = true := by
  induction cs with
  | nil => rfl
  | cons c r ih => simp [anyEnd, ih]

/-- The pattern `*` has every text. -/
theorem fits_many (cs : List Char) : fits [.many] cs = true := by
  simp only [fits, anyEnd_isEmpty]

theorem fits_chars (ds cs : List Char) :
    fits (ds.map Element.char) cs = true ↔ cs = ds := by
  induction ds generalizing cs with
  | nil => cases cs <;> simp [fits]
  | cons d r ih =>
    cases cs with
    | nil => simp [fits]
    | cons c t => simp [fits, Element.has, ih]; exact fun _ => eq_comm

/-! ### Reading texts -/

/-- The pattern without a `*` in front of another one. -/
def squeeze : List Element → List Element
  | .many :: .many :: es => squeeze (.many :: es)
  | e :: es => e :: squeeze es
  | [] => []

theorem anyEnd_anyEnd (p : List Char → Bool) (cs : List Char) :
    anyEnd (anyEnd p) cs = anyEnd p cs := by
  induction cs with
  | nil => rfl
  | cons c r ih => rw [anyEnd, ih, anyEnd, Bool.or_assoc, Bool.or_self]

theorem fits_squeeze (es : List Element) : fits (squeeze es) = fits es := by
  fun_induction squeeze es with
  | case1 es ih =>
    rw [ih]
    funext cs
    exact (anyEnd_anyEnd _ cs).symm
  | case2 e es _ ih => funext cs; cases e <;> simp only [fits, ih]
  | case3 => rfl

/-- What is left of a pattern, with the number of its elements. -/
structure Rest where
  size : Nat
  elements : List Element

namespace Rest

def whole (es : List Element) : Rest := ⟨(squeeze es).length, squeeze es⟩

/-- Whether the empty text has what is left. -/
def isDone (r : Rest) : Bool := r.elements.all Element.isMany

/-- What can be left of a pattern with so many elements behind a character. -/
def behind (c : Char) : Nat → List Element → List Rest
  | _, [] => []
  | size, .many :: es => ⟨size, .many :: es⟩ :: behind c (size - 1) es
  | size, e :: es => if e.has c then [⟨size - 1, es⟩] else []

/-- Rests with one more in front, unless that is the first one again. -/
def add (r : Rest) (rs : List Rest) : List Rest :=
  match rs.head? with
  | some s => if s.size = r.size then rs else r :: rs
  | none => [r]

/-- What can be left of a pattern behind one more character. -/
def next (rs : List Rest) (c : Char) : List Rest :=
  (rs.flatMap fun r => behind c r.size r.elements).foldr add []

end Rest

theorem fits_nil (es : List Element) : fits es [] = es.all Element.isMany := by
  induction es with
  | nil => rfl
  | cons e r ih => cases e <;> simp [fits, anyEnd, Element.isMany, ih]

namespace Rest

/-- Whether a rest is one of a pattern, with the right number of elements. -/
def IsOf (es : List Element) (r : Rest) : Prop := r.size = r.elements.length ∧ r.elements <:+ es

theorem isOf_behind {es : List Element} {c : Char} {size : Nat} {rest : List Element}
    (hsize : size = rest.length) (hrest : rest <:+ es) :
    ∀ r ∈ behind c size rest, IsOf es r := by
  induction rest generalizing size with
  | nil => simp [behind]
  | cons e rest ih =>
    have htail : rest <:+ es := (List.suffix_cons e rest).trans hrest
    have hpred : size - 1 = rest.length := by rw [hsize, List.length_cons, Nat.add_sub_cancel]
    intro r hr
    cases e with
    | many =>
      rcases List.mem_cons.1 hr with rfl | hr
      · exact ⟨hsize, hrest⟩
      · exact ih hpred htail r hr
    | _ =>
      simp only [behind] at hr
      split at hr
      · exact List.mem_singleton.1 hr ▸ ⟨hpred, htail⟩
      · cases hr

theorem any_behind (c : Char) (size : Nat) (es : List Element) (cs : List Char) :
    (behind c size es).any (fun r => fits r.elements cs) = fits es (c :: cs) := by
  induction es generalizing size with
  | nil => rfl
  | cons e r ih =>
    cases e with
    | many =>
      simp only [behind, List.any_cons, ih, fits, anyEnd]
      exact Bool.or_comm _ _
    | _ => simp only [behind, fits]; split <;> simp [*]

theorem isOf_add {es : List Element} {rs : List Rest} (h : ∀ r ∈ rs, IsOf es r) :
    ∀ r ∈ rs.foldr add [], IsOf es r := by
  induction rs with
  | nil => exact h
  | cons r rs ih =>
    intro s hs
    have htail := ih fun t ht => h t (List.mem_cons_of_mem _ ht)
    have hcons : ∀ t ∈ r :: rs.foldr add [], IsOf es t := fun t ht =>
      (List.mem_cons.1 ht).elim (fun ht => ht ▸ h r List.mem_cons_self) (htail t)
    rw [List.foldr_cons, add] at hs
    split at hs
    · split at hs
      · exact htail s hs
      · exact hcons s hs
    · exact List.mem_singleton.1 hs ▸ h r List.mem_cons_self

theorem any_add {es : List Element} {rs : List Rest} (p : List Element → Bool)
    (h : ∀ r ∈ rs, IsOf es r) :
    (rs.foldr add []).any (fun r => p r.elements) = rs.any fun r => p r.elements := by
  induction rs with
  | nil => rfl
  | cons r rs ih =>
    have htail : ∀ t ∈ rs, IsOf es t := fun t ht => h t (List.mem_cons_of_mem _ ht)
    rw [List.foldr_cons, List.any_cons, ← ih htail, add]
    cases hrs : rs.foldr add [] with
    | nil => simp
    | cons s t =>
      simp only [List.head?_cons, List.any_cons]
      split
      · rename_i hsize
        have hr := h r List.mem_cons_self
        have hs := isOf_add htail s (hrs ▸ List.mem_cons_self)
        have hlength : s.elements.length = r.elements.length := by rw [← hs.1, ← hr.1, hsize]
        have hsame : s.elements = r.elements :=
          (List.suffix_of_suffix_length_le hs.2 hr.2 (Nat.le_of_eq hlength)).eq_of_length hlength
        simp only [List.any_cons, hsame, ← Bool.or_assoc, Bool.or_self]
      · simp

theorem isOf_next {es : List Element} {rs : List Rest} (c : Char) (h : ∀ r ∈ rs, IsOf es r) :
    ∀ r ∈ next rs c, IsOf es r := by
  refine isOf_add fun r hr => ?_
  obtain ⟨s, hs, hr⟩ := List.mem_flatMap.1 hr
  exact isOf_behind (h s hs).1 (h s hs).2 r hr

theorem any_next {es : List Element} {rs : List Rest} (c : Char) (cs : List Char)
    (h : ∀ r ∈ rs, IsOf es r) :
    (next rs c).any (fun r => fits r.elements cs) = rs.any fun r => fits r.elements (c :: cs) := by
  rw [next, any_add (fun es => fits es cs), List.any_flatMap]
  · simp only [any_behind]
  · intro r hr
    obtain ⟨s, hs, hr⟩ := List.mem_flatMap.1 hr
    exact isOf_behind (h s hs).1 (h s hs).2 r hr

theorem any_isDone_foldl {es : List Element} (cs : List Char) {rs : List Rest}
    (h : ∀ r ∈ rs, IsOf es r) :
    (cs.foldl next rs).any isDone = rs.any fun r => fits r.elements cs := by
  induction cs generalizing rs with
  | nil => simp only [List.foldl_nil, fits_nil]; rfl
  | cons c cs ih => rw [List.foldl_cons, ih (isOf_next c h), any_next c cs h]

end Rest

/-- Whether a text has a pattern, found by reading it once. -/
def accepts (es : List Element) (cs : List Char) : Bool :=
  (cs.foldl Rest.next [.whole es]).any Rest.isDone

/-- Reading a text once tells whether it has a pattern. -/
theorem accepts_eq_fits (es : List Element) (cs : List Char) : accepts es cs = fits es cs := by
  have h : ∀ r ∈ [Rest.whole es], Rest.IsOf (squeeze es) r := fun r hr =>
    List.mem_singleton.1 hr ▸ ⟨rfl, List.suffix_refl (squeeze es)⟩
  rw [accepts, Rest.any_isDone_foldl cs h, List.any_cons, List.any_nil, Bool.or_false, Rest.whole,
    fits_squeeze]

/-- The lengths of the starts of a text that have a pattern, the longest one first, when `n` characters
have been read: `found` holds the lengths so far, and `rs` is what can be left of the pattern. When
one length is enough, reading ends with the first. -/
def startsAfter (isOne : Bool) (found : List Nat) (n : Nat) (rs : List Rest) (cs : List Char) :
    List Nat :=
  let found := if rs.any Rest.isDone then n :: found else found
  match rs, cs with
  | [], _ => found
  | _, [] => found
  | rs, c :: r =>
    if isOne && !found.isEmpty then found else startsAfter isOne found (n + 1) (Rest.next rs c) r

/-- The lengths of the starts of a text that have a pattern, the longest one first; only the shortest
one when one is enough. -/
def fittingStarts (es : List Element) (isOne : Bool) (cs : List Char) : List Nat :=
  startsAfter isOne [] 0 [.whole es] cs

/-- The lengths of the ends of a text that have a pattern, the longest one first; only the shortest one
when one is enough. -/
def fittingEnds (es : List Element) (isOne : Bool) (cs : List Char) : List Nat :=
  fittingStarts es.reverse isOne cs.reverse

/-! ### Trimming -/

/-- The character between arguments that are one text, which no argument holds. -/
def argumentEnd : Char := '\x00'

/-- The part of a text that a pattern sees: the first argument in it. -/
def seen (cs : List Char) : List Char := cs.takeWhile (· ≠ argumentEnd)

/-- The text without its shortest or longest start that has the pattern. A start that goes on behind
the first argument has the pattern if that argument has it. -/
def trimStart (es : List Element) (longest : Bool) (cs : List Char) : List Char :=
  let first := seen cs
  match (fittingStarts es (!longest) first).head? with
  | none => cs
  | some n => if longest && n = first.length then [] else cs.drop n

/-- The number of characters in the shortest end of an argument that has the pattern and in what is
behind the argument, looking at the last one first; the arguments stand the other way round, with the
number of characters behind them. -/
def shortestEnd? (es : List Element) : Nat → List (List Char) → Option Nat
  | _, [] => none
  | behind, a :: before =>
    match (fittingEnds es true a).head? with
    | some n => some (behind + n)
    | none => shortestEnd? es (behind + a.length + 1) before

/-- The text without its shortest or longest end that has the pattern. What is behind an argument is
part of the ends of it. -/
def trimEnd (es : List Element) (longest : Bool) (cs : List Char) : List Char :=
  if longest then
    let first := seen cs
    match (fittingEnds es false first).head? with
    | some n => cs.take (first.length - n)
    | none => cs
  else
    match shortestEnd? es 0 (Text.pieces (· = argumentEnd) cs).reverse with
    | some n => cs.take (cs.length - n)
    | none => cs

/-! ### Trimming several arguments -/

/-- Whether a quoted character is marked in a pattern or in an argument. -/
def isMarked (c : Char) : Bool := "!*?[=~:/-]\\".toList.contains c

/-- The mark in front of a character of an argument. -/
def mark : Char := '\x81'

def marked (cs : List Char) : List Char := cs.flatMap fun c => if isMarked c then [mark, c] else [c]

/-- The text of a pattern, in which a backslash marks quoted characters. -/
def patternText (gs : List Glyph) : List Char :=
  gs.flatMap fun g => if g.quoted && isMarked g.char then ['\\', g.char] else [g.char]

def ofPatternText (cs : List Char) : List Element := ofGlyphs (cs.map fun c => ⟨c, false⟩)

/-- Whether a pattern is found at a place in quoted arguments, which is given by the number of
characters behind it. That number is counted in the text in which it is looked for: the arguments with
their marks or, when the first one has any, that one without them, which stands behind the arguments
and the text of the pattern. -/
def isFoundAt (gs : List Glyph) (atEnd : Bool) (args : List (List Char)) (behind : Nat) : Bool :=
  let buffer := List.intercalate [argumentEnd] (args.map marked)
  let first := args.headD []
  let text := patternText gs
  let place (cs : List Char) : Nat := cs.length - behind
  if !first.any isMarked then
    accepts (ofGlyphs gs)
      (if atEnd then seen (buffer.drop (place buffer)) else (seen buffer).take (place buffer))
  else if atEnd then
    let memory := List.intercalate [argumentEnd] [buffer, text, first]
    accepts (ofGlyphs gs) (seen (memory.drop (place memory)))
  else if behind ≤ first.length then accepts (ofGlyphs gs) (first.take (place first))
  else
    let kept := text.length + first.length + 1 - behind
    0 < kept && accepts (ofPatternText (text.take kept)) first

/-- Several quoted arguments as one text, without a start or an end of it that has a pattern. The
shortest end and the longest start are looked for from the end of the last argument on. -/
def trimTogether (gs : List Glyph) (atEnd longest : Bool) (args : List (List Char)) : List Char :=
  let cs := List.intercalate [argumentEnd] args
  if atEnd && longest then trimEnd (ofGlyphs gs) longest cs
  else if !atEnd && !longest then trimStart (ofGlyphs gs) longest cs
  else
    match (List.range (cs.length + 1)).find? (isFoundAt gs atEnd args) with
    | some n => if atEnd then cs.take (cs.length - n) else cs.drop (cs.length - n)
    | none => cs

end Pattern

end UnusedDeps.Shell
