import GuestThreads.Bytes
import Std.Data.HashMap

/-!
# Linear memory

A memory is a number of pages of bytes, which are zero until written. All accesses are checked
against its size; `size32` is the size as a 32-bit word, which the largest memory does not fit in.
-/

namespace GuestThreads.Wasm

/-- The size of a page in bytes. -/
def pageSize : Nat := 65536

structure Memory where
  pages : Nat
  /-- How many pages it may grow to. -/
  ceiling : Nat
  cells : Std.HashMap Nat UInt8 := ∅

namespace Memory

def size (m : Memory) : Nat := m.pages * pageSize

def size32 (m : Memory) : UInt32 := m.size.toUInt32

def byte (m : Memory) (address : Nat) : UInt8 := m.cells.getD address 0

/-- Whether `length` bytes from `offset` on lie inside the memory. -/
def covers (m : Memory) (offset length : Nat) : Bool := offset + length ≤ m.size

def read (m : Memory) (offset length : Nat) : Option Bytes :=
  if m.covers offset length then
    some ((List.range length).map fun i => m.byte (offset + i))
  else none

/-- Store bytes one after the other, without a check. -/
def store (m : Memory) : (offset : Nat) → Bytes → Memory
  | _, [] => m
  | offset, b :: rest => store { m with cells := m.cells.insert offset b } (offset + 1) rest

def write (m : Memory) (offset : Nat) (bytes : Bytes) : Option Memory :=
  if m.covers offset bytes.length then some (m.store offset bytes) else none

def readWord (m : Memory) (offset width : Nat) : Option Nat := (m.read offset width).map Bytes.toNat

/-- The former number of pages, unless the memory may not grow that far. -/
def grow (m : Memory) (delta : UInt32) : Option (Nat × Memory) :=
  let pages := m.pages + delta.toNat
  if m.ceiling < pages then none else some (m.pages, { m with pages := pages })

end Memory

end GuestThreads.Wasm
