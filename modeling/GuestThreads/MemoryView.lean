import GuestThreads.Fault
import GuestThreads.Wasm.Memory

/-!
# Views of memory

Reading and writing a linear memory from outside. Every access that does not lie inside the memory
fails and changes nothing. A view of no memory has size zero, and nothing lies inside it.
-/

namespace GuestThreads.MemoryView

open Wasm (Memory)

def size (m : Option Memory) : UInt32 :=
  match m with
  | some memory => memory.size32
  | none => 0

def outOfBounds (m : Option Memory) (offset length : UInt32) : Fault :=
  .outOfBounds .memory offset.toUInt64 length.toUInt64 (size m).toUInt64

def read (m : Option Memory) (offset length : UInt32) : Except Fault Bytes :=
  match m.bind (·.read offset.toNat length.toNat) with
  | some bytes => .ok bytes
  | none => .error (outOfBounds m offset length)

/-- The memory with the bytes written to it. -/
def write (m : Option Memory) (offset : UInt32) (bytes : Bytes) : Except Fault Memory :=
  match m.bind (·.write offset.toNat bytes) with
  | some memory => .ok memory
  | none => .error (outOfBounds m offset bytes.length.toUInt32)

def readU32 (m : Option Memory) (offset : UInt32) : Except Fault UInt32 := do
  return (Bytes.toNat (← read m offset 4)).toUInt32

def readU64 (m : Option Memory) (offset : UInt32) : Except Fault UInt64 := do
  return (Bytes.toNat (← read m offset 8)).toUInt64

def writeU32 (m : Option Memory) (offset v : UInt32) : Except Fault Memory :=
  write m offset (Bytes.ofUInt32 v)

def writeU64 (m : Option Memory) (offset : UInt32) (v : UInt64) : Except Fault Memory :=
  write m offset (Bytes.ofUInt64 v)

end GuestThreads.MemoryView
