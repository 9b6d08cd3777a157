import GuestThreads.Fault

/-!
# Thread regions

The memory above a base is cut into regions of one size, one for each thread. A region holds a
stack that grows down from the stack pointer, and the thread-local block above it. Addresses are
computed in 64 bits.
-/

namespace GuestThreads

/-- The memory that a single thread owns. -/
structure Region where
  index : Nat
  base : UInt32
  stackPtr : UInt32
  tlsPtr : UInt32
  finish : UInt32
deriving DecidableEq, Repr

/-- Where regions start, what they hold, and how many are handed out. -/
structure Layout where
  base : UInt64
  stackSize : UInt64
  tlsSize : UInt64
  next : Nat := 0
deriving DecidableEq, Repr

namespace Layout

/-- The alignment of stack tops and thread-local blocks. -/
def alignment : UInt64 := 16

/-- The next multiple of the alignment. -/
def alignUp (v : UInt64) : UInt64 := (v + (alignment - 1)) / alignment * alignment

def ofSizes (base stackSize tlsSize : UInt32) : Layout where
  base := alignUp base.toUInt64
  stackSize := alignUp stackSize.toUInt64
  tlsSize := alignUp tlsSize.toUInt64

/-- The size of one region. -/
def stride (l : Layout) : UInt64 := l.stackSize + l.tlsSize

/-- Why there is no such region. -/
inductive Refusal where
  | negativeIndex
  | outOfBounds (offset length size : UInt64)
deriving DecidableEq, Repr

def Refusal.fault : Refusal → Fault
  | .negativeIndex => .invalidInput .runtime "negative region index"
  | .outOfBounds offset length size => .outOfBounds .runtime offset length size

/-- Region `i` of a memory of `memSize` bytes; nothing is handed out. -/
def region (l : Layout) (i : Int) (memSize : UInt32) : Except Refusal Region :=
  if i < 0 then .error .negativeIndex
  else
    let base := l.base + i.toNat.toUInt64 * l.stride
    let finish := base + l.stride
    if memSize.toUInt64 < finish then .error (.outOfBounds base l.stride memSize.toUInt64)
    else .ok {
      index := i.toNat
      base := base.toUInt32
      stackPtr := (base + l.stackSize).toUInt32
      tlsPtr := (base + l.stackSize).toUInt32
      finish := finish.toUInt32 }

/-- Hand out the next region. One that does not fit stays free. -/
def reserve (l : Layout) (memSize : UInt32) : Except Refusal (Region × Layout) := do
  let r ← l.region l.next memSize
  return (r, { l with next := l.next + 1 })

/-- How many regions fit in `memSize` bytes. -/
def capacity (l : Layout) (memSize : UInt32) : Nat :=
  if l.stride = 0 ∨ memSize.toUInt64 < l.base then 0
  else ((memSize.toUInt64 - l.base) / l.stride).toNat

end Layout

end GuestThreads
