import GuestThreads.Bytes

/-!
# Reading primitives from bytes

A cursor is a position in a byte string together with what is left to read. A read either yields a
value or says where and why it stopped; in both cases the cursor keeps what was consumed.
-/

namespace GuestThreads

structure Cursor where
  rest : Bytes
  position : Nat := 0

def Cursor.remaining (c : Cursor) : Nat := c.rest.length

namespace Cursor

inductive Stop where
  | endOfInput
  | overflow
  | notUtf8
deriving DecidableEq, Repr

def Stop.message : Stop → String
  | .endOfInput => "unexpected EOF"
  | .overflow => "leb128: overflow"
  | .notUtf8 => "invalid UTF-8 in name"

/-- Why a read stopped, and the position reached. -/
structure Failure where
  position : Nat
  stop : Stop
deriving DecidableEq, Repr

def Failure.place (f : Failure) : String := s!"at position {f.position}"

def Failure.message (f : Failure) : String := f.place ++ ": " ++ f.stop.message

/-- A read: it moves the cursor also when it fails. -/
abbrev Read := ExceptT Failure (StateM Cursor)

/-- Stop at the current position. -/
def stop {α : Type} (why : Stop) : Read α := do
  throw ⟨(← get).position, why⟩

def byte : Read UInt8 := do
  let c ← get
  match c.rest with
  | [] => stop .endOfInput
  | b :: rest =>
    set ({ rest := rest, position := c.position + 1 } : Cursor)
    pure b

/-- Exactly `n` bytes. A negative count, or one beyond the end, moves nothing. -/
def take (n : Int) : Read Bytes := do
  let c ← get
  if n < 0 ∨ c.remaining < n then stop .endOfInput
  else
    set ({ rest := c.rest.drop n.toNat, position := c.position + n.toNat } : Cursor)
    pure (c.rest.take n.toNat)

def skip (n : Int) : Read Unit := do
  let _ ← take n

/-- The number written in at most `groups` LEB128 groups. -/
def leb128 : (groups : Nat) → Read Nat
  | 0 => stop .overflow
  | groups + 1 => do
    let b ← byte
    if b.toNat < 128 then pure b.toNat
    else
      let high ← leb128 groups
      pure (b.toNat - 128 + 128 * high)

/-- At most five groups, of which the low 32 bits count. -/
def u32 : Read UInt32 := do
  return (← leb128 5).toUInt32

/-- At most ten groups, of which the low 64 bits count. -/
def u64 : Read UInt64 := do
  return (← leb128 10).toUInt64

/-- A text preceded by its length in bytes. -/
def name : Read String := do
  let length ← u32
  let data ← take length.toNat
  match Bytes.toString? data with
  | some s => pure s
  | none => stop .notUtf8

end Cursor

end GuestThreads
