import GuestThreads.Wasm.Module

/-!
# Decoding modules

`Module.decode?` reads a binary module. A decoder takes what it needs from the front of the bytes
and fails without saying why, because an engine only ever accepts or refuses a binary as a whole.
Sections may come in any order, and a later one of the same kind replaces an earlier one.
-/

namespace GuestThreads.Wasm

abbrev Decoder := StateT Bytes Option

namespace Decoder

def byte : Decoder UInt8 := fun bytes =>
  match bytes with
  | [] => none
  | b :: rest => some (b, rest)

/-- Exactly `n` bytes. -/
def take (n : Nat) : Decoder Bytes := fun bytes =>
  if bytes.length < n then none else some (bytes.take n, bytes.drop n)

/-- An unsigned number in at most `groups` groups. -/
def unsigned : (groups : Nat) → Decoder Nat
  | 0 => failure
  | groups + 1 => do
    let b ← byte
    if b.toNat < 128 then return b.toNat
    else return b.toNat - 128 + 128 * (← unsigned groups)

/-- A signed number in at most `groups` groups; bit 6 of the last one is the sign. -/
def signed : (groups : Nat) → Decoder Int
  | 0 => failure
  | groups + 1 => do
    let b ← byte
    if b.toNat < 64 then return b.toNat
    else if b.toNat < 128 then return (b.toNat : Int) - 128
    else return (b.toNat : Int) - 128 + 128 * (← signed groups)

/-- An unsigned number that fits in 32 bits. -/
def u32 : Decoder UInt32 := do
  let n ← unsigned 5
  if n < UInt32.size then return n.toUInt32 else failure

def s32 : Decoder Int32 := do
  let v ← signed 5
  if -0x80000000 ≤ v ∧ v ≤ 0x7fffffff then return Int32.ofInt v else failure

def s64 : Decoder Int64 := do
  let v ← signed 10
  if -0x8000000000000000 ≤ v ∧ v ≤ 0x7fffffffffffffff then return Int64.ofInt v else failure

def index : Decoder Nat := do
  return (← u32).toNat

/-- The given byte and no other. -/
def expect (b : UInt8) : Decoder Unit := do
  if (← byte) = b then return () else failure

def name : Decoder String := do
  let bytes ← take (← index)
  match Bytes.toString? bytes with
  | some s => return s
  | none => failure

/-- `count` items in a row. -/
def repeated {α : Type} (item : Decoder α) : (count : Nat) → Decoder (List α)
  | 0 => return []
  | count + 1 => do
    let a ← item
    return a :: (← repeated item count)

/-- A list preceded by its length. -/
def vector {α : Type} (item : Decoder α) : Decoder (List α) := do
  repeated item (← index)

/-- Items until the bytes end; every item takes up at least one of them. -/
def exhaust {α : Type} (item : Decoder α) : (limit : Nat) → Bytes → Option (List α)
  | _, [] => some []
  | 0, _ => none
  | limit + 1, bytes => do
    let (a, rest) ← item bytes
    return a :: (← exhaust item limit rest)

/-- Use up all of the given bytes. -/
def whole {α : Type} (d : Decoder α) (bytes : Bytes) : Option α :=
  match d bytes with
  | some (a, []) => some a
  | _ => none

def valType : Decoder ValType := do
  match ValType.ofCode? (← byte) with
  | some t => return t
  | none => failure

def funcType : Decoder FuncType := do
  expect 0x60
  let params ← vector valType
  return { params := params, results := ← vector valType }

/-- Limits with 32-bit bounds. -/
def limits : Decoder Limits := do
  let flags ← byte
  if flags ≤ 3 then
    let min ← u32
    let max ← if flags = 1 ∨ flags = 3 then some <$> u32 else pure none
    return { min := min.toUInt64, max := max.map (·.toUInt64), shared := 2 ≤ flags }
  else failure

def reftype : Decoder UInt8 := do
  let b ← byte
  if b = 0x70 ∨ b = 0x6f then return b else failure

def mutability : Decoder UInt8 := do
  let b ← byte
  if b ≤ 1 then return b else failure

def globalType : Decoder GlobalType := do
  let t ← valType
  return { type := t, mutable := (← mutability) = 1 }

def importDesc : Decoder Import.Desc := do
  match ← byte with
  | 0 => return .func (← u32)
  | 1 =>
    let r ← reftype
    return .table r (← limits)
  | 2 => return .memory (← limits)
  | 3 =>
    let t ← byte
    if (ValType.ofCode? t).isSome then return .global t (← mutability) else failure
  | _ => failure

def importEntry : Decoder Import := do
  let m ← name
  let n ← name
  return { module := m, name := n, desc := ← importDesc }

def exportKind : Decoder ExportKind := do
  match ← byte with
  | 0 => return .func
  | 1 => return .table
  | 2 => return .memory
  | 3 => return .global
  | _ => failure

def exportEntry : Decoder Export := do
  let n ← name
  let k ← exportKind
  return { name := n, kind := k, index := ← index }

def constant : Decoder Constant := do
  let c ← match ← byte with
    | 0x41 => .i32 <$> s32
    | 0x42 => .i64 <$> s64
    | _ => failure
  expect 0x0b
  return c

def global : Decoder Global := do
  let t ← globalType
  return { type := t, init := ← constant }

/-- The alignment and offset of an access to a 32-bit word. -/
def offset (aligned : Bool) : Decoder UInt32 := do
  let alignment ← u32
  if alignment = 2 ∨ (!aligned ∧ alignment < 2) then u32 else failure

def instr : Decoder Instr := do
  match ← byte with
  | 0x00 => return .unreachable
  | 0x10 => return .call (← u32)
  | 0x1a => return .drop
  | 0x20 => return .localGet (← u32)
  | 0x23 => return .globalGet (← u32)
  | 0x24 => return .globalSet (← u32)
  | 0x28 => return .i32Load (← offset false)
  | 0x36 => return .i32Store (← offset false)
  | 0x3f =>
    expect 0x00
    return .memorySize
  | 0x40 =>
    expect 0x00
    return .memoryGrow
  | 0x41 => return .i32Const (← s32)
  | 0x6a => return .i32Add
  | 0xfe =>
    expect 0x1e
    return .i32AtomicRmwAdd (← offset true)
  | _ => failure

/-- A run of locals of one type. -/
def localGroup : Decoder (Nat × ValType) := do
  let n ← index
  return (n, ← valType)

/-- The locals and instructions of a function, between its size and the end mark. -/
def body : Decoder (List ValType × List Instr) := do
  let bytes ← take (← index)
  match vector localGroup bytes with
  | none => failure
  | some (groups, code) =>
    if 50000 < groups.foldl (· + ·.1) 0 then failure
    else if code.getLast? ≠ some 0x0b then failure
    else
      match exhaust instr code.length code.dropLast with
      | some instrs => return (groups.flatMap fun (n, t) => List.replicate n t, instrs)
      | none => failure

end Decoder

/-- What the sections of a module have said so far. -/
structure Sections where
  module : Module := {}
  typeIndices : List Nat := []
  bodies : List (List ValType × List Instr) := []

namespace Sections

/-- Take in a section. -/
def add (s : Sections) (id : UInt8) (content : Bytes) : Option Sections :=
  let m := s.module
  match id with
  | 0 => (Decoder.name content).map fun _ => s
  | 1 => do
    return { s with module := { m with
      types := ← (Decoder.vector Decoder.funcType).whole content } }
  | 2 => do
    return { s with module := { m with
      imports := ← (Decoder.vector Decoder.importEntry).whole content } }
  | 3 => do
    return { s with typeIndices := ← (Decoder.vector Decoder.index).whole content }
  | 4 => do
    let table : Decoder Limits := do
      let _ ← Decoder.reftype
      Decoder.limits
    return { s with module := { m with tables := ← (Decoder.vector table).whole content } }
  | 5 => do
    return { s with module := { m with
      memories := ← (Decoder.vector Decoder.limits).whole content } }
  | 6 => do
    return { s with module := { m with
      globals := ← (Decoder.vector Decoder.global).whole content } }
  | 7 => do
    return { s with module := { m with
      exports := ← (Decoder.vector Decoder.exportEntry).whole content } }
  | 8 => do
    if m.start.isSome then none
    else return { s with module := { m with start := some (← Decoder.index.whole content) } }
  | 10 => do
    return { s with bodies := ← (Decoder.vector Decoder.body).whole content }
  | _ => none

/-- Take in all sections; each has a byte at least. -/
def addAll : (limit : Nat) → Sections → Bytes → Option Sections
  | _, s, [] => some s
  | 0, _, _ => none
  | limit + 1, s, bytes => do
    let (id, rest) ← Decoder.byte bytes
    let (size, rest) ← Decoder.index rest
    let (content, rest) ← Decoder.take size rest
    addAll limit (← s.add id content) rest

/-- Every declared function has a body. -/
def toModule? (s : Sections) : Option Module :=
  if s.typeIndices.length = s.bodies.length then
    some { s.module with
      funcs := List.zipWith
        (fun t (b : List ValType × List Instr) => { typeIndex := t, locals := b.1, code := b.2 })
        s.typeIndices s.bodies }
  else none

end Sections

/-- The module that a binary denotes, not yet checked for validity. -/
def Module.decode? (bytes : Bytes) : Option Module :=
  if bytes.take header.length = header then do
    (← Sections.addAll bytes.length {} (bytes.drop header.length)).toModule?
  else none

end GuestThreads.Wasm
