import UnusedDeps.Text.Codes

/-!
# Reading UTF-8

A sequence of bytes is cut into characters and faults: a fault is the longest
start of a character's encoding that the bytes do not carry on, or one byte that
starts none. A strict reader refuses faults, a lenient one shows each as U+FFFD.
-/

namespace UnusedDeps.Text

/-- The bits that a first byte contributes, and the ranges of the bytes that must follow it. -/
def leadByte? (b : Nat) : Option (Nat × List (Nat × Nat)) :=
  if b < 0x80 then some (b, [])
  else if 0xc2 ≤ b ∧ b ≤ 0xdf then some (b - 0xc0, [(0x80, 0xbf)])
  else if b = 0xe0 then some (0, [(0xa0, 0xbf), (0x80, 0xbf)])
  else if b = 0xed then some (0xd, [(0x80, 0x9f), (0x80, 0xbf)])
  else if 0xe1 ≤ b ∧ b ≤ 0xef then some (b - 0xe0, [(0x80, 0xbf), (0x80, 0xbf)])
  else if b = 0xf0 then some (0, [(0x90, 0xbf), (0x80, 0xbf), (0x80, 0xbf)])
  else if 0xf1 ≤ b ∧ b ≤ 0xf3 then some (b - 0xf0, [(0x80, 0xbf), (0x80, 0xbf), (0x80, 0xbf)])
  else if b = 0xf4 then some (4, [(0x80, 0x8f), (0x80, 0xbf), (0x80, 0xbf)])
  else none

/-- The code point that the bytes in the given ranges complete, `none` for a fault, and the number
of bytes taken. -/
def followBytes (bits taken : Nat) : List (Nat × Nat) → List UInt8 → Option Nat × Nat
  | [], _ => (some bits, taken)
  | _ :: _, [] => (none, taken)
  | (lo, hi) :: ranges, b :: r =>
    if lo ≤ b.toNat ∧ b.toNat ≤ hi then
      followBytes (bits * 64 + b.toNat % 64) (taken + 1) ranges r
    else (none, taken)

/-- The character at the front, `none` for a fault, and the number of bytes after the first one
that it takes. -/
def frontChar (b : UInt8) (r : List UInt8) : Option Char × Nat :=
  match leadByte? b.toNat with
  | none => (none, 0)
  | some (bits, ranges) =>
    let (code, taken) := followBytes bits 0 ranges r
    (code.map Char.ofNat, taken)

/-- The characters and faults of a sequence of bytes, whose first `skip` bytes belong to the
character before them. -/
def charsOrFaults : Nat → List UInt8 → List (Option Char)
  | _, [] => []
  | skip + 1, _ :: r => charsOrFaults skip r
  | 0, b :: r =>
    let (c, taken) := frontChar b r
    c :: charsOrFaults taken r

/-- The text of a sequence of bytes that has no fault. -/
def ofUtf8? (bytes : List UInt8) : Option String :=
  ((charsOrFaults 0 bytes).mapM id).map fun cs => ofPlain (String.ofList cs)

/-- The text of a sequence of bytes with U+FFFD for each fault. -/
def ofUtf8Lossy (bytes : List UInt8) : String :=
  ofPlain (String.ofList ((charsOrFaults 0 bytes).map (·.getD '\ufffd')))

/-- The UTF-8 bytes of a text, as far as characters have any. -/
def utf8 (s : String) : List UInt8 := (toPlain s).toList.flatMap String.utf8EncodeChar

/-- The bytes of a code point in the name of a file: half a pair from `U+DC80` to `U+DCFF` stands
for one byte that is no text, and other halves have none. -/
def nameBytes? (n : Nat) : Option (List UInt8) :=
  if !isHalfPair n then some (String.utf8EncodeChar (Char.ofNat n))
  else if 0xdc80 ≤ n && n ≤ 0xdcff then some [(n - 0xdc00).toUInt8]
  else none

/-- The bytes of a text as the name of a file, an argument or a variable. -/
def hostBytes? (s : String) : Option (List UInt8) := ((codes s).mapM nameBytes?).map List.flatten

end UnusedDeps.Text
