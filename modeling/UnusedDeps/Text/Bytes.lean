import UnusedDeps.Text.Utf8

/-!
# Texts of bytes

A program that does not care for characters works on bytes. A text of bytes
holds, for each byte, the character whose code is the byte. Main statement: the
bytes of such a text are the bytes it was made of.
-/

namespace UnusedDeps.Text

def ofBytes (bs : List UInt8) : String := String.ofList (bs.map fun b => Char.ofNat b.toNat)

def toBytes (s : String) : List UInt8 := s.toList.map fun c => c.toNat.toUInt8

theorem toBytes_ofBytes (bs : List UInt8) : toBytes (ofBytes bs) = bs := by
  unfold toBytes ofBytes
  rw [String.toList_ofList, List.map_map]
  conv => rhs; rw [← List.map_id bs]
  refine List.map_congr_left fun b _ => ?_
  have small : b.toNat < 256 := b.toNat_lt
  have valid : b.toNat.isValidChar := Or.inl (by omega)
  have code : (Char.ofNat b.toNat).toNat = b.toNat := by
    rw [Char.ofNat, dif_pos valid]
    rfl
  simp only [Function.comp_apply, code, id]
  exact UInt8.ofNat_toNat

/-- The text of bytes that a name, an argument or a variable is to a process. -/
def bytewise (s : String) : String := ofBytes ((hostBytes? s).getD [])

/-- The code points for bytes, whose first `skip` ones belong to the character before them; a byte
that is no part of a character is half a pair. -/
def codesOfHost : Nat → List UInt8 → List Nat
  | _, [] => []
  | skip + 1, _ :: r => codesOfHost skip r
  | 0, b :: r =>
    match frontChar b r with
    | (some c, taken) => c.toNat :: codesOfHost taken r
    | (none, _) => (0xdc00 + b.toNat) :: codesOfHost 0 r

/-- The name, argument or variable that a text of bytes is. -/
def hostText (s : String) : String := ofCodes (codesOfHost 0 (toBytes s))

/-- The text for the bytes that a name is to the host; names with the same bytes have one such text.
A name without bytes stands for itself. -/
def hostName (s : String) : String := ((hostBytes? s).map (hostText ∘ ofBytes)).getD s

end UnusedDeps.Text
