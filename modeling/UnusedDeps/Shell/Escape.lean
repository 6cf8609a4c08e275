import UnusedDeps.Shell.Name

/-!
# Escapes in written texts

`echo` and `printf` write bytes, and a backslash starts an escape: a letter or octal
digits name a byte. Programs differ in the escapes they know, so what is done with a
text is a function of the reader of one escape.
-/

namespace UnusedDeps.Shell

def byteOf (c : Char) : UInt8 := c.toNat.toUInt8

def escapes : List (Char × UInt8) :=
  [('a', 7), ('b', 8), ('e', 27), ('f', 12), ('n', 10), ('r', 13), ('t', 9), ('v', 11), ('\\', 92)]

/-- A way to read the escape that follows a backslash: its bytes and the number of characters it
takes, or what ends the output. -/
abbrev EscapeReader (ε : Type) := List Char → Except ε (List UInt8 × Nat)

/-- The byte of an escape in octal digits, and the number of characters it takes; in a text, as
against a format, a zero may stand in front of them. -/
def octalEscape (isText : Bool) (r : List Char) : List UInt8 × Nat :=
  let leading := match r with
    | '0' :: d :: _ => if isText && isOctal d then 1 else 0
    | _ => 0
  let ds := ((r.drop leading).take 3).takeWhile isOctal
  ([(number 8 ds).toUInt8], leading + ds.length)

/-- The escape that follows a backslash. In a text `c` ends the output. -/
def escape (isText : Bool) : EscapeReader Unit := fun r =>
  match r with
  | [] => .ok ([92], 0)
  | c :: _ =>
    match escapes.lookup c with
    | some b => .ok ([b], 1)
    | none =>
      if isText && c = 'c' then .error ()
      else if isOctal c then .ok (octalEscape isText r)
      else .ok ([92], 0)

/-- The bytes of a text with escapes, whose first `skip` characters belong to the escape before
them, and what ended the output, if anything did. -/
def unescape {ε : Type} (read : EscapeReader ε) : Nat → List Char → List UInt8 × Option ε
  | _, [] => ([], none)
  | skip + 1, _ :: r => unescape read skip r
  | 0, c :: r =>
    if c = '\\' then
      match read r with
      | .error e => ([], some e)
      | .ok (bytes, taken) => let (rest, ended) := unescape read taken r; (bytes ++ rest, ended)
    else let (rest, ended) := unescape read 0 r; (byteOf c :: rest, ended)

/-- Every character of a text without backslashes is written as it is. -/
theorem unescape_of_not_mem {ε : Type} (read : EscapeReader ε) (cs : List Char) (h : '\\' ∉ cs) :
    unescape read 0 cs = (cs.map byteOf, none) := by
  induction cs with
  | nil => rfl
  | cons c cs ih =>
    have hc : c ≠ '\\' := fun e => h (e ▸ List.mem_cons_self)
    have ht : '\\' ∉ cs := fun m => h (List.mem_cons_of_mem _ m)
    simp only [unescape, hc, if_false, ih ht, List.map_cons]

/-- The output of `echo` with escapes: the words between blanks, and a line end unless it is not
wanted or the output was ended before it. -/
def echo (words : List String) : List UInt8 :=
  let (newline, words) := match words with
    | "-n" :: rest => (false, rest)
    | ws => (true, ws)
  let (bytes, ended) := unescape (escape true) 0 (String.intercalate " " words).toList
  if newline && ended.isNone then bytes ++ [10] else bytes

end UnusedDeps.Shell
