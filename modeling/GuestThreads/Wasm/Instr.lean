import GuestThreads.Leb128

/-!
# Instructions

The instructions that guests are made of, and their binary form. Memory instructions are written
with their natural alignment.
-/

namespace GuestThreads.Wasm

inductive Instr where
  | localGet (index : UInt32)
  | globalGet (index : UInt32)
  | globalSet (index : UInt32)
  | call (index : UInt32)
  | i32Const (v : Int32)
  | i32Add
  | drop
  | unreachable
  | i32Load (offset : UInt32)
  | i32Store (offset : UInt32)
  /-- Add to a word in memory and leave its former value. -/
  | i32AtomicRmwAdd (offset : UInt32)
  | memorySize
  | memoryGrow
deriving DecidableEq

def Instr.encode : Instr → Bytes
  | .localGet i => 0x20 :: Leb128.ofUInt32 i
  | .globalGet i => 0x23 :: Leb128.ofUInt32 i
  | .globalSet i => 0x24 :: Leb128.ofUInt32 i
  | .call i => 0x10 :: Leb128.ofUInt32 i
  | .i32Const v => 0x41 :: Leb128.ofInt32 v
  | .i32Add => [0x6a]
  | .drop => [0x1a]
  | .unreachable => [0x00]
  | .i32Load offset => 0x28 :: 0x02 :: Leb128.ofUInt32 offset
  | .i32Store offset => 0x36 :: 0x02 :: Leb128.ofUInt32 offset
  | .i32AtomicRmwAdd offset => 0xfe :: 0x1e :: 0x02 :: Leb128.ofUInt32 offset
  | .memorySize => [0x3f, 0x00]
  | .memoryGrow => [0x40, 0x00]

end GuestThreads.Wasm
