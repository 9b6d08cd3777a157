import GuestThreads.Bytes

/-!
# LEB128 numbers

A number is written in groups of seven bits, lowest group first, and every byte but the last has
its high bit set. A signed number ends at the first group whose bit 6 already carries the sign.
-/

namespace GuestThreads.Leb128

/-- The groups of an unsigned number. -/
def unsigned (n : Nat) : Bytes :=
  if n < 128 then [n.toUInt8] else (n % 128 + 128).toUInt8 :: unsigned (n / 128)
termination_by n
decreasing_by omega

/-- The groups of a signed number. -/
def signed (v : Int) : Bytes :=
  if -64 ≤ v ∧ v < 64 then [(v % 128).toNat.toUInt8]
  else (v % 128 + 128).toNat.toUInt8 :: signed (v / 128)
termination_by v.natAbs
decreasing_by omega

def ofUInt32 (v : UInt32) : Bytes := unsigned v.toNat

def ofUInt64 (v : UInt64) : Bytes := unsigned v.toNat

def ofInt32 (v : Int32) : Bytes := signed v.toInt

def ofInt64 (v : Int64) : Bytes := signed v.toInt

end GuestThreads.Leb128
