/-!
# White space, words and lines

The white space of a text is the Unicode white space together with the four
separator controls U+001C to U+001F. The module trims texts, splits them into
words and lines, and folds the three ways of ending a line into one.
-/

namespace UnusedDeps.Text

/-- The ranges of code points that count as white space. -/
def blankRanges : List (Nat × Nat) :=
  [(0x09, 0x0d), (0x1c, 0x20), (0x85, 0x85), (0xa0, 0xa0), (0x1680, 0x1680), (0x2000, 0x200a),
   (0x2028, 0x2029), (0x202f, 0x202f), (0x205f, 0x205f), (0x3000, 0x3000)]

/-- Whether a character is white space. -/
def isBlank (c : Char) : Bool :=
  blankRanges.any fun (lo, hi) => lo ≤ c.toNat && c.toNat ≤ hi

theorem isBlank_of_isWhitespace (c : Char) (h : c.isWhitespace = true) : isBlank c = true := by
  simp only [Char.isWhitespace, Bool.or_eq_true, decide_eq_true_eq] at h
  rcases h with ((h | h) | h) | h <;> subst h <;> decide

/-! ### Trimming -/

/-- The characters without those at the front that satisfy `p`, and without those at the back. -/
def trimBoth (p : Char → Bool) (cs : List Char) : List Char :=
  ((cs.dropWhile p).reverse.dropWhile p).reverse

/-- The text without the white space at its two ends. -/
def strip (s : String) : String := String.ofList (trimBoth isBlank s.toList)

/-- The text without the white space at its end. -/
def stripEnd (s : String) : String := String.ofList (s.toList.reverse.dropWhile isBlank).reverse

/-! ### Splitting -/

/-- The pieces between the characters that satisfy `p`, empty pieces included. -/
def pieces (p : Char → Bool) : List Char → List (List Char)
  | [] => [[]]
  | c :: r =>
    if p c then [] :: pieces p r
    else
      match pieces p r with
      | [] => [[c]]
      | w :: ws => (c :: w) :: ws

def splitOnChar (sep : Char) (s : String) : List String :=
  (pieces (· == sep) s.toList).map String.ofList

/-- The non-empty texts between white space. -/
def words (s : String) : List String :=
  ((pieces isBlank s.toList).filter fun w => !w.isEmpty).map String.ofList

/-- The text before the first occurrence of a character and the text after it, which is `none` when
the character does not occur. -/
def cut (sep : Char) : List Char → List Char × Option (List Char)
  | [] => ([], none)
  | c :: r =>
    if c = sep then ([], some r)
    else ((c :: (cut sep r).1), (cut sep r).2)

/-! ### Lines -/

def isLineEnd (c : Char) : Bool :=
  [0x0a, 0x0b, 0x0c, 0x0d, 0x1c, 0x1d, 0x1e, 0x85, 0x2028, 0x2029].contains c.toNat

/-- The lines of a text without their ends; a carriage return and a line feed end one line. -/
def linesOf : List Char → List (List Char)
  | [] => []
  | '\r' :: '\n' :: r => [] :: linesOf r
  | c :: r =>
    if isLineEnd c then [] :: linesOf r
    else
      match linesOf r with
      | [] => [[c]]
      | l :: ls => (c :: l) :: ls

/-- The lines of a text without their ends. -/
def lines (s : String) : List String := (linesOf s.toList).map String.ofList

/-- The characters with each carriage return, alone or before a line feed, read as a line feed. -/
def foldNewlines : List Char → List Char
  | [] => []
  | '\r' :: '\n' :: r => '\n' :: foldNewlines r
  | '\r' :: r => '\n' :: foldNewlines r
  | c :: r => c :: foldNewlines r

/-! ### Folding library names -/

/-- The text with each `-` read as `_`, the way a compiler names a library. -/
def underscored (s : String) : String :=
  String.ofList (s.toList.map fun c => if c = '-' then '_' else c)

end UnusedDeps.Text
