import GuestThreads.Wasm.Decoder
import GuestThreads.Wasm.Machine
import GuestThreads.Wasm.Validity

/-!
# An interpreter of straight-line code

The machine that guests are run on here. It accepts the binaries that the decoder reads and the
rules of validity allow, and runs their code instruction by instruction on a stack of operands.
-/

namespace GuestThreads.Wasm

/-- The code of a function between two instructions. -/
structure Activation where
  locals : List UInt64
  /-- The instructions still to run. -/
  code : List Instr
  /-- The operands, topmost first. -/
  stack : List UInt64 := []

namespace Activation

/-- The code of a function that is about to start, with the given arguments. -/
def start? (m : Module) (index : Nat) (args : List UInt64) : Option Activation := do
  let f ← m.funcs[index - m.importedFuncs.length]?
  let t ← m.types[f.typeIndex]?
  return {
    code := f.code, locals := List.zipWith ValType.clip t.params args ++ f.locals.map fun _ => 0 }

/-- Push the results of a call, the last one of them topmost. -/
def push (results : List UInt64) (b : Activation) : Activation :=
  { b with stack := results ++ b.stack }

/-- Go on behind the current instruction with the given stack. -/
def goOn (b : Activation) (stack : List UInt64) : Activation :=
  { b with code := b.code.tail, stack := stack }

end Activation

/-- The address that a memory instruction accesses. -/
def effective (base : UInt64) (offset : UInt32) : Nat := base.toUInt32.toNat + offset.toNat

/-- An access to the word at an address of the memory in scope. -/
def access (v : Scope) (aligned : Bool) (address : Nat) : Except Trap (Memory × UInt32) :=
  match v.memory with
  | none => .error .outOfBounds
  | some memory =>
    match memory.readWord address 4 with
    | none => .error .outOfBounds
    | some word =>
      if aligned && address % 4 ≠ 0 then .error .unaligned else .ok (memory, word.toUInt32)

namespace Scope

/-- Store a word that is known to lie inside the memory. -/
def putWord (v : Scope) (memory : Memory) (address : Nat) (word : UInt32) : Scope :=
  { v with memory := some (memory.store address (Bytes.ofUInt32 word)) }

def setGlobal (v : Scope) (index : Nat) (word : UInt64) : Scope :=
  { v with globals := v.globals.setIfInBounds index word }

end Scope

/-- Run one instruction. -/
def runInstr (m : Module) (v : Scope) (b : Activation) (i : Instr) : Move Activation :=
  let go (stack : List UInt64) : Move Activation := .ran v (b.goOn stack)
  match i with
  | .localGet n => go ((b.locals[n.toNat]?).getD 0 :: b.stack)
  | .globalGet n => go ((v.globals[n.toNat]?).getD 0 :: b.stack)
  | .globalSet n =>
    match b.stack with
    | word :: stack => .ran (v.setGlobal n.toNat word) (b.goOn stack)
    | [] => .trapped .unreachable
  | .call n =>
    match m.funcType? n.toNat with
    | none => .trapped .unreachable
    | some t =>
      let k := t.params.length
      .call n.toNat (b.stack.take k).reverse (b.goOn (b.stack.drop k))
  | .i32Const word => go (word.toUInt32.toUInt64 :: b.stack)
  | .i32Add =>
    match b.stack with
    | y :: x :: stack => go ((x.toUInt32 + y.toUInt32).toUInt64 :: stack)
    | _ => .trapped .unreachable
  | .drop =>
    match b.stack with
    | _ :: stack => go stack
    | [] => .trapped .unreachable
  | .unreachable => .trapped .unreachable
  | .i32Load offset =>
    match b.stack with
    | base :: stack =>
      match access v false (effective base offset) with
      | .error t => .trapped t
      | .ok (_, word) => go (word.toUInt64 :: stack)
    | [] => .trapped .unreachable
  | .i32Store offset =>
    match b.stack with
    | word :: base :: stack =>
      match access v false (effective base offset) with
      | .error t => .trapped t
      | .ok (memory, _) =>
        .ran (v.putWord memory (effective base offset) word.toUInt32) (b.goOn stack)
    | _ => .trapped .unreachable
  | .i32AtomicRmwAdd offset =>
    match b.stack with
    | word :: base :: stack =>
      match access v true (effective base offset) with
      | .error t => .trapped t
      | .ok (memory, old) =>
        .ran (v.putWord memory (effective base offset) (old + word.toUInt32))
          (b.goOn (old.toUInt64 :: stack))
    | _ => .trapped .unreachable
  | .memorySize =>
    match v.memory with
    | some memory => go (memory.pages.toUInt64 :: b.stack)
    | none => .trapped .unreachable
  | .memoryGrow =>
    match b.stack with
    | delta :: stack =>
      match v.memory with
      | some memory =>
        match memory.grow delta.toUInt32 with
        | some (former, grown) =>
          .ran { v with memory := some grown } (b.goOn (former.toUInt64 :: stack))
        | none => go (0xffffffff :: stack)
      | none => .trapped .unreachable
    | [] => .trapped .unreachable

/-- The next move of a function's code, which ends with the operands it has left. -/
def Activation.move (m : Module) (v : Scope) (b : Activation) : Move Activation :=
  match b.code with
  | i :: _ => runInstr m v b i
  | [] => .ended b.stack

/-- How many calls may be active at a time. -/
def callLimit : Nat := 2000

/-- More instructions than a function has, whose size is a 32-bit number. -/
def codeLimit : Nat := 4294967296

/-- The steps that a call may take before it is given up: code without loops, whose calls are nested
at most `callLimit` deep, has no more of them. -/
@[irreducible] def stepLimit : Nat := Nat.pow (codeLimit + 1) (callLimit + 1)

/-- The binaries that are read and valid, run instruction by instruction. Code does not mind that
its instance is closed. -/
instance interpreter : Machine where
  compile? pageLimit bytes := do
    let m ← Module.decode? bytes
    if m.valid pageLimit then some m else none
  fill _ v := (v, none)
  Body := Activation
  enter? := Activation.start?
  step m _ v b := b.move m v
  resume := Activation.push
  room bodies := bodies.length < callLimit
  stepLimit := stepLimit

end GuestThreads.Wasm
