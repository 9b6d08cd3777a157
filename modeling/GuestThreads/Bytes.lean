/-!
# Byte strings

Binary data is a list of bytes. Words are stored with their least significant byte first.
-/

namespace GuestThreads

abbrev Bytes := List UInt8

namespace Bytes

/-- The UTF-8 bytes of a text. -/
def ofString (s : String) : Bytes := s.toUTF8.data.toList

/-- The text that the bytes spell, if they are valid UTF-8. -/
def toString? (b : Bytes) : Option String := String.fromUTF8? ⟨b.toArray⟩

/-- How many bytes a character takes up that starts with this byte. -/
def charWidth (b : UInt8) : Nat :=
  if b < 0x80 then 1 else if b < 0xe0 then 2 else if b < 0xf0 then 3 else 4

/-- The text that the bytes spell, with the replacement character for each byte that is not part of
a valid character. -/
def toText (b : Bytes) : String := go b.length b
where
  go : (limit : Nat) → Bytes → String
    | _, [] => ""
    | 0, _ => ""
    | limit + 1, first :: rest =>
      let width := charWidth first
      match toString? (first :: rest.take (width - 1)) with
      | some s => s ++ go limit (rest.drop (width - 1))
      | none => String.singleton (Char.ofNat 0xfffd) ++ go limit rest

/-- The lowest `width` bytes of `n`. -/
def ofNat : (width n : Nat) → Bytes
  | 0, _ => []
  | width + 1, n => n.toUInt8 :: ofNat width (n / 256)

/-- The number whose bytes these are. -/
def toNat : Bytes → Nat
  | [] => 0
  | b :: rest => b.toNat + 256 * toNat rest

def ofUInt32 (v : UInt32) : Bytes := ofNat 4 v.toNat

def ofUInt64 (v : UInt64) : Bytes := ofNat 8 v.toNat

@[simp] theorem length_ofNat (width n : Nat) : (ofNat width n).length = width := by
  induction width generalizing n with
  | zero => rfl
  | succ width ih => simp [ofNat, ih]

end Bytes

end GuestThreads
