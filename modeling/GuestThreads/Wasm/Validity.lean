import GuestThreads.Wasm.Module

/-!
# Valid modules

A module is valid if its indices denote something, its exports have distinct names, its memories
respect the page limit, and every function leaves exactly its results on the stack. Code behind
`unreachable` may take whatever it needs from below the known part of the stack.
-/

namespace GuestThreads.Wasm

/-- The types on the operand stack, the topmost first. -/
structure StackType where
  known : List ValType := []
  /-- Values of any type may be taken from below the known ones. -/
  unreachable : Bool := false
deriving DecidableEq

namespace StackType

def push (s : StackType) (t : ValType) : StackType := { s with known := t :: s.known }

def pop (s : StackType) (t : ValType) : Option StackType :=
  match s.known with
  | u :: rest => if u = t then some { s with known := rest } else none
  | [] => if s.unreachable then some s else none

/-- Pop a value of any type. -/
def popAny (s : StackType) : Option StackType :=
  match s.known with
  | _ :: rest => some { s with known := rest }
  | [] => if s.unreachable then some s else none

/-- Push all types, so that the last one is on top. -/
def pushAll (s : StackType) (ts : List ValType) : StackType := ts.foldl push s

/-- Pop all types, of which the last one is on top. -/
def popAll (s : StackType) (ts : List ValType) : Option StackType := ts.reverse.foldlM pop s

end StackType

/-- The most pages that any memory can have. -/
def maxPages : Nat := 65536

/-- Bounds of a memory under an engine's page limit. A shared memory states its maximum. -/
def Limits.validMemory (l : Limits) (pageLimit : Nat) : Bool :=
  l.min.toNat ≤ pageLimit &&
    match l.max with
    | some max => max.toNat ≤ maxPages && l.min ≤ max
    | none => !l.shared

/-- How far a memory with these limits can grow under an engine's page limit. -/
def Limits.ceiling (l : Limits) (pageLimit : Nat) : Nat :=
  match l.max with
  | some max => Nat.min max.toNat pageLimit
  | none => pageLimit

namespace Module

def hasMemory (m : Module) : Bool := !m.importedMemories.isEmpty || !m.memories.isEmpty

/-- The stack after an instruction, in a function with the given locals. -/
def typeInstr (m : Module) (locals : List ValType) (s : StackType) : Instr → Option StackType
  | .localGet i => do return s.push (← locals[i.toNat]?)
  | .globalGet i => do return s.push (← m.globalType? i.toNat).type
  | .globalSet i => do
    let t ← m.globalType? i.toNat
    if t.mutable then s.pop t.type else none
  | .call i => do
    let t ← m.funcType? i.toNat
    return (← s.popAll t.params).pushAll t.results
  | .i32Const _ => some (s.push .i32)
  | .i32Add => do return (← (← s.pop .i32).pop .i32).push .i32
  | .drop => s.popAny
  | .unreachable => some { known := [], unreachable := true }
  | .i32Load _ => do
    if m.hasMemory then return (← s.pop .i32).push .i32 else none
  | .i32Store _ => do
    if m.hasMemory then (← s.pop .i32).pop .i32 else none
  | .i32AtomicRmwAdd _ => do
    if m.hasMemory then return (← (← s.pop .i32).pop .i32).push .i32 else none
  | .memorySize => if m.hasMemory then some (s.push .i32) else none
  | .memoryGrow => do
    if m.hasMemory then return (← s.pop .i32).push .i32 else none

/-- The code takes the parameters as locals and leaves exactly the results. -/
def validFunc (m : Module) (f : Func) : Bool :=
  match m.types[f.typeIndex]? with
  | none => false
  | some t =>
    match f.code.foldlM (m.typeInstr (t.params ++ f.locals)) {} with
    | none => false
    | some s =>
      match s.popAll t.results with
      | some s => s.known.isEmpty
      | none => false

def validExport (m : Module) (e : Export) : Bool :=
  match e.kind with
  | .func => e.index < m.importedFuncs.length + m.funcs.length
  | .table =>
    e.index < (m.imports.filter fun i => i.desc.kind = 1).length + m.tables.length
  | .memory => e.index < m.importedMemories.length + m.memories.length
  | .global => e.index < m.importedGlobals.length + m.globals.length

/-- The start function takes and gives nothing. -/
def validStart (m : Module) : Bool :=
  match m.start with
  | none => true
  | some i => m.funcType? i = some {}

/-- Each name occurs once. -/
def distinct : List String → Bool
  | [] => true
  | s :: rest => !rest.contains s && distinct rest

def valid (pageLimit : Nat) (m : Module) : Bool :=
  (m.importedFuncs.all (· < m.types.length)) &&
  (m.importedMemories ++ m.memories).length ≤ 1 &&
  (m.importedMemories ++ m.memories).all (·.validMemory pageLimit) &&
  m.globals.all (fun g => g.init.type = g.type.type) &&
  distinct (m.exports.map (·.name)) &&
  m.exports.all m.validExport &&
  m.validStart &&
  m.funcs.all m.validFunc

end Module

end GuestThreads.Wasm
