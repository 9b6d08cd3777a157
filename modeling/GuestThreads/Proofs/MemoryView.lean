import GuestThreads.MemoryView
import GuestThreads.Proofs.Wasm.Memory

/-!
# What a view lets through

An access lies inside a memory or it does not. In the first case a view yields the bytes that stand
there, or the memory with other bytes in their place; in the second case it names the range. Words
are their bytes, the least significant first, so that a long word is two words in a row.
-/

namespace GuestThreads

namespace Bytes

/-- The lowest `width` bytes of a number, the least significant first. -/
def littleEndian (width n : Nat) : Bytes := (List.range width).map fun i => (n >>> (8 * i)).toUInt8

theorem ofNat_eq_littleEndian (width n : Nat) : ofNat width n = littleEndian width n := by
  induction width generalizing n with
  | zero => rfl
  | succ width ih =>
    rw [ofNat, ih, littleEndian, littleEndian, List.range_succ_eq_map, List.map_cons, List.map_map]
    congr 1
    apply List.map_congr_left
    intro i _
    have hshift : n / 256 = n >>> 8 := (Nat.shiftRight_eq_div_pow n 8).symm
    rw [hshift, ← Nat.shiftRight_add, Function.comp_apply, Nat.mul_succ, Nat.add_comm]

theorem ofNat_append (low high n : Nat) :
    ofNat (low + high) n = ofNat low n ++ ofNat high (n / 256 ^ low) := by
  induction low generalizing n with
  | zero => simp [ofNat]
  | succ low ih =>
    rw [Nat.succ_add, ofNat, ofNat, ih, List.cons_append, Nat.div_div_eq_div_mul, Nat.pow_succ']

/-- Higher bytes do not count. -/
theorem ofNat_mod (width n : Nat) : ofNat width (n % 256 ^ width) = ofNat width n := by
  induction width generalizing n with
  | zero => rfl
  | succ width ih =>
    have hlow : (n % 256 ^ (width + 1)).toUInt8 = n.toUInt8 := by
      apply UInt8.toNat_inj.1
      have hdvd : 256 ∣ 256 ^ (width + 1) := Dvd.intro_left _ (Nat.pow_succ ..).symm
      exact Nat.mod_mod_of_dvd n hdvd
    have hhigh : n % 256 ^ (width + 1) / 256 = n / 256 % 256 ^ width := by
      rw [Nat.pow_succ', Nat.mod_mul_right_div_self]
    rw [ofNat, hlow, hhigh, ih, ofNat]

/-- A long word is its lower half and then its upper half. -/
theorem ofUInt64_eq_halves (v : UInt64) :
    ofUInt64 v = ofUInt32 v.toUInt32 ++ ofUInt32 (v >>> 32).toUInt32 := by
  have hlow : v.toUInt32.toNat = v.toNat % 256 ^ 4 := v.toNat_toUInt32
  have hhigh : (v >>> 32).toUInt32.toNat = v.toNat / 256 ^ 4 % 256 ^ 4 := by
    rw [UInt64.toNat_toUInt32, UInt64.toNat_shiftRight, Nat.shiftRight_eq_div_pow]
    rfl
  rw [ofUInt64, ofUInt32, ofUInt32, hlow, hhigh, ofNat_mod, ofNat_mod]
  exact ofNat_append 4 4 v.toNat

theorem toNat_lt (bs : Bytes) : toNat bs < 256 ^ bs.length := by
  induction bs with
  | nil => decide
  | cons b bs ih =>
    have hb : b.toNat < 256 := b.toNat_lt
    rw [toNat, List.length_cons, Nat.pow_succ']
    omega

theorem ofNat_toNat {width : Nat} {bs : Bytes} (h : bs.length = width) :
    ofNat width (toNat bs) = bs := by
  induction bs generalizing width with
  | nil =>
    cases h
    rfl
  | cons b bs ih =>
    cases h
    have hb : b.toNat < 256 := b.toNat_lt
    have hlow : (b.toNat + 256 * toNat bs).toUInt8 = b :=
      UInt8.toNat_inj.1 (by simp)
    have hhigh : (b.toNat + 256 * toNat bs) / 256 = toNat bs := by omega
    rw [List.length_cons, ofNat, toNat, hlow, hhigh, ih rfl]

@[simp] theorem toNat_ofUInt64 (v : UInt64) : toNat (ofUInt64 v) = v.toNat := by
  rw [ofUInt64, toNat_ofNat, Nat.mod_eq_of_lt]
  exact v.toNat_lt

end Bytes

namespace Wasm.Memory

variable {m : Memory} {offset length : Nat}

@[simp] theorem size_store (m : Memory) (offset : Nat) (bytes : Bytes) :
    (m.store offset bytes).size = m.size := by
  rw [size, size, pages_store]

theorem store_append (m : Memory) (offset : Nat) (low high : Bytes) :
    m.store offset (low ++ high) = (m.store offset low).store (offset + low.length) high := by
  induction low generalizing m offset with
  | nil => rfl
  | cons b low ih =>
    rw [List.cons_append, store, store, ih, List.length_cons, Nat.add_right_comm, Nat.add_assoc]

/-- The bytes that stand at an offset. -/
def bytesAt (m : Memory) (offset length : Nat) : Bytes :=
  (List.range length).map fun i => m.byte (offset + i)

theorem read_inside (h : offset + length ≤ m.size) :
    m.read offset length = some (m.bytesAt offset length) := if_pos (by simpa [covers] using h)

theorem bytesAt_store_self {bytes : Bytes} (h : offset + bytes.length ≤ m.size) :
    (m.store offset bytes).bytesAt offset bytes.length = bytes := by
  have hread := read_store_self (m := m) (by simpa [covers] using h)
  rw [read_inside (by simpa using h)] at hread
  exact Option.some.inj hread

theorem bytesAt_store_beside {address : Nat} {bytes : Bytes}
    (h : address + length ≤ offset ∨ offset + bytes.length ≤ address) :
    (m.store offset bytes).bytesAt address length = m.bytesAt address length := by
  apply List.map_congr_left
  intro i hi
  have hlt := List.mem_range.1 hi
  exact byte_store_outside (by omega)

end Wasm.Memory

namespace MemoryView

open Wasm (Memory)

/-- The fault of an access that does not lie inside a memory. -/
def IsOutOfBounds (f : Fault) : Prop :=
  ∃ r, f.report? = some r ∧ r.phase = .memory ∧ r.kind = .outOfBounds

theorem isOutOfBounds (m : Option Memory) (offset length : UInt32) :
    IsOutOfBounds (outOfBounds m offset length) := ⟨_, rfl, rfl, rfl⟩

theorem read_eq (m : Memory) (offset length : UInt32) :
    read (some m) offset length =
      if offset.toNat + length.toNat ≤ m.size then .ok (m.bytesAt offset.toNat length.toNat)
      else .error (outOfBounds (some m) offset length) := by
  rw [read, Option.bind_some]
  by_cases h : offset.toNat + length.toNat ≤ m.size
  · rw [if_pos h, Memory.read_inside h]
  · rw [if_neg h, Memory.read, if_neg (by simpa [Memory.covers] using h)]

theorem write_eq (m : Memory) (offset : UInt32) (bytes : Bytes) :
    write (some m) offset bytes =
      if offset.toNat + bytes.length ≤ m.size then .ok (m.store offset.toNat bytes)
      else .error (outOfBounds (some m) offset bytes.length.toUInt32) := by
  rw [write, Option.bind_some, Memory.write]
  by_cases h : offset.toNat + bytes.length ≤ m.size
  · rw [if_pos h, if_pos (by simpa [Memory.covers] using h)]
  · rw [if_neg h, if_neg (by simpa [Memory.covers] using h)]

theorem readU32_eq (m : Memory) (offset : UInt32) :
    readU32 (some m) offset =
      if offset.toNat + 4 ≤ m.size then .ok (Bytes.toNat (m.bytesAt offset.toNat 4)).toUInt32
      else .error (outOfBounds (some m) offset 4) := by
  rw [readU32, read_eq]
  change (if offset.toNat + 4 ≤ m.size then _ else _ : Except Fault Bytes).bind _ = _
  split <;> rfl

theorem readU64_eq (m : Memory) (offset : UInt32) :
    readU64 (some m) offset =
      if offset.toNat + 8 ≤ m.size then .ok (Bytes.toNat (m.bytesAt offset.toNat 8)).toUInt64
      else .error (outOfBounds (some m) offset 8) := by
  rw [readU64, read_eq]
  change (if offset.toNat + 8 ≤ m.size then _ else _ : Except Fault Bytes).bind _ = _
  split <;> rfl

end MemoryView

end GuestThreads
