import GuestThreads.Wasm.Memory
import Mathlib.Algebra.Order.Ring.Nat

/-!
# Laws of linear memory

What is stored can be read back, and what lies beside it stays.
-/

namespace GuestThreads

namespace Bytes

theorem toNat_ofNat (width n : Nat) : toNat (ofNat width n) = n % 256 ^ width := by
  induction width generalizing n with
  | zero => simp [ofNat, toNat, Nat.mod_one]
  | succ width ih =>
    rw [ofNat, toNat, ih, Nat.pow_succ', Nat.mod_mul]
    simp

@[simp] theorem toNat_ofUInt32 (v : UInt32) : toNat (ofUInt32 v) = v.toNat := by
  rw [ofUInt32, toNat_ofNat, Nat.mod_eq_of_lt]
  exact v.toNat_lt

@[simp] theorem length_ofUInt32 (v : UInt32) : (ofUInt32 v).length = 4 := length_ofNat 4 _

end Bytes

namespace Wasm.Memory

variable {m : Memory} {offset address length : Nat} {bytes : Bytes}

@[simp] theorem pages_store (m : Memory) (offset : Nat) (bytes : Bytes) :
    (m.store offset bytes).pages = m.pages := by
  induction bytes generalizing m offset with
  | nil => rfl
  | cons b bytes ih => rw [store, ih]

@[simp] theorem ceiling_store (m : Memory) (offset : Nat) (bytes : Bytes) :
    (m.store offset bytes).ceiling = m.ceiling := by
  induction bytes generalizing m offset with
  | nil => rfl
  | cons b bytes ih => rw [store, ih]

@[simp] theorem covers_store (m : Memory) (offset : Nat) (bytes : Bytes) (address length : Nat) :
    (m.store offset bytes).covers address length = m.covers address length := by
  rw [covers, covers, size, size, pages_store]

/-- Bytes beside those that are stored stay. -/
theorem byte_store_outside (h : address < offset ∨ offset + bytes.length ≤ address) :
    (m.store offset bytes).byte address = m.byte address := by
  induction bytes generalizing m offset with
  | nil => rfl
  | cons b bytes ih =>
    rw [List.length_cons] at h
    rw [store, ih (by omega), byte, byte, Std.HashMap.getD_insert]
    simp only [beq_iff_eq]
    rw [if_neg (by omega)]

theorem byte_store_inside {i : Nat} (h : i < bytes.length) :
    (m.store offset bytes).byte (offset + i) = bytes[i] := by
  induction bytes generalizing m offset i with
  | nil => simp at h
  | cons b bytes ih =>
    rw [store]
    cases i with
    | zero => rw [byte_store_outside (by omega), byte]; simp
    | succ i =>
      have hi : i < bytes.length := by simpa using h
      have hplace : offset + (i + 1) = offset + 1 + i := by omega
      rw [hplace, ih hi, List.getElem_cons_succ]

/-- What is stored can be read back, whole or in part. -/
theorem read_store_within {n : Nat} (hcovers : m.covers offset bytes.length = true)
    (h : n + length ≤ bytes.length) :
    (m.store offset bytes).read (offset + n) length = some ((bytes.drop n).take length) := by
  have hcovers' : m.covers (offset + n) length = true := by
    simp only [covers, decide_eq_true_eq] at hcovers ⊢
    omega
  rw [read, if_pos (by simpa using hcovers')]
  congr 1
  apply List.ext_getElem
  · simp
    omega
  · intro i hi _
    have hi' : i < length := by simpa using hi
    have hplace : offset + n + i = offset + (n + i) := by omega
    simp [hplace, byte_store_inside (show n + i < bytes.length by omega)]

theorem read_store_self (h : m.covers offset bytes.length = true) :
    (m.store offset bytes).read offset bytes.length = some bytes := by
  simpa using read_store_within (n := 0) h (Nat.le_of_eq (Nat.zero_add _))

/-- What lies beside is read as before. -/
theorem read_store_beside
    (h : address + length ≤ offset ∨ offset + bytes.length ≤ address) :
    (m.store offset bytes).read address length = m.read address length := by
  rw [read, read, covers_store]
  congr 2
  apply List.map_congr_left
  intro i hi
  have hlt := List.mem_range.1 hi
  exact byte_store_outside (by omega)

/-- The 32-bit word at an address. -/
def word? (m : Memory) (address : Nat) : Option UInt32 := (m.readWord address 4).map Nat.toUInt32

theorem word?_isSome_iff : (m.word? address).isSome ↔ address + 4 ≤ m.size := by
  simp only [word?, readWord, read]
  split <;> simp_all [covers]

/-- A memory is blank until something is stored in it. -/
theorem word?_blank (hcells : m.cells = ∅) (h : address + 4 ≤ m.size) :
    m.word? address = some 0 := by
  have hread : m.read address 4 = some [0, 0, 0, 0] := by
    rw [read, if_pos (by simpa [covers] using h)]
    simp [byte, hcells, List.range_succ]
  rw [word?, readWord, hread]
  rfl

theorem word?_store_within {n : Nat} (hcovers : m.covers offset bytes.length = true)
    (h : n + 4 ≤ bytes.length) :
    (m.store offset bytes).word? (offset + n) =
      some (Bytes.toNat ((bytes.drop n).take 4)).toUInt32 := by
  rw [word?, readWord, read_store_within hcovers h]
  rfl

theorem word?_store_self (v : UInt32) (h : address + 4 ≤ m.size) :
    (m.store address (Bytes.ofUInt32 v)).word? address = some v := by
  have hcovers : m.covers address (Bytes.ofUInt32 v).length = true := by simpa [covers] using h
  have hwhole : (Bytes.ofUInt32 v).take 4 = Bytes.ofUInt32 v := List.take_of_length_le (by simp)
  simpa [hwhole] using word?_store_within (n := 0) hcovers (by simp)

theorem word?_store_beside {v : UInt32} (h : address + 4 ≤ offset ∨ offset + 4 ≤ address) :
    (m.store offset (Bytes.ofUInt32 v)).word? address = m.word? address := by
  rw [word?, word?, readWord, readWord, read_store_beside (by simpa using h)]

end Wasm.Memory

end GuestThreads
