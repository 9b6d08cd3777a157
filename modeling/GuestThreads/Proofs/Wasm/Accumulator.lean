import GuestThreads.Config
import GuestThreads.Proofs.Wasm.Access
import GuestThreads.Proofs.Wasm.Assembly
import GuestThreads.Proofs.Wasm.Linked

/-!
# A guest that counts

The threads of this guest share a counter, the word in a cell of their memory. Each thread notes
down its TLS pointer in its own TLS region, adds its closure to the counter in a single atomic step,
and posts its closure together with what the counter was before.
-/

namespace GuestThreads.Wasm

/-! ## The guest -/

/-- A function that takes a pointer. -/
def pointerType : FuncType := { params := [.i32] }

/-- Store the pointer where it points to. -/
def noteDown : List Instr := [.localGet 0, .localGet 0, .i32Store 0]

/-- Add the closure to the counter, and post the closure and the former value. -/
def addAndPost (cell : UInt32) : List Instr :=
  [.localGet 0, .i32Const cell.toInt32, .localGet 0, .i32AtomicRmwAdd 0, .call 0]

/-- The guest under the names of a configuration, with its counter at `cell`. -/
def accumulator (c : Config) (memory : Assembly.MemoryImport) (cell : UInt32) : Assembly where
  imports := [{ module := c.signal.module, name := c.signal.name, type := signalType }]
  memory := some memory
  globals := [{ type := .i32, mutable := true, init := 0 }]
  funcs := [
    { type := pointerType, code := noteDown },
    { type := pointerType, code := addAndPost cell }]
  exports := [
    { kind := .global, name := c.exports.stackPointer, index := 0 },
    { kind := .func, name := c.exports.initTls, index := 1 },
    { kind := .func, name := c.exports.entrypoint, index := 2 }]

section

variable {c : Config} {memory : Assembly.MemoryImport} {cell : UInt32}

theorem accumulator_numeric : (accumulator c memory cell).Numeric := by
  refine ⟨?_, by simp [accumulator]⟩
  have htypes : (accumulator c memory cell).types = [signalType, pointerType, pointerType] := rfl
  rw [htypes]
  decide

/-- The names of a guest that an engine accepts differ, so that each export is found. -/
structure Exposes (m : Module) (exports : Config.Exports) : Prop where
  stackPointer : m.export? exports.stackPointer = some ⟨exports.stackPointer, .global, 0⟩
  initTls : m.export? exports.initTls = some ⟨exports.initTls, .func, 1⟩
  entrypoint : m.export? exports.entrypoint = some ⟨exports.entrypoint, .func, 2⟩

theorem accumulator_exposes {pageLimit : Nat}
    (h : (accumulator c memory cell).meaning.valid pageLimit = true) :
    Exposes (accumulator c memory cell).meaning c.exports := by
  simp only [Module.valid, Bool.and_eq_true] at h
  have hnames := Module.distinct_iff_nodup.1 h.1.1.1.2
  have hmem (e : Export) (he : e ∈ (accumulator c memory cell).meaning.exports) :=
    Module.export?_of_mem hnames he
  exact ⟨hmem ⟨_, .global, 0⟩ (.head _), hmem ⟨_, .func, 1⟩ (.tail _ (.head _)),
    hmem ⟨_, .func, 2⟩ (.tail _ (.tail _ (.head _)))⟩

end

/-! ## Its instances -/

/-- An instance but for the values of its globals. -/
def Instance.fixture (x : Instance) : Instance := { x with globals := #[] }

/-- An instance in place `inst` that posts signals by `callee` and imports memory `linear`. -/
def seated (m : Module) (callee : Callee) (inst linear : Nat) : Instance where
  module := m
  callees := #[callee, .code inst 1, .code inst 2]
  memory := some linear

/-- A call of one of the guest's own functions, with the code that is left and its stack. -/
def pointerCall (inst index : Nat) (arg : UInt32) (code : List Instr) (stack : List UInt64) :
    Frame where
  inst := inst
  index := index
  type := pointerType
  body := ({ locals := [arg.toUInt64], code := code, stack := stack } : Activation)

section

variable {s : Store} {c : Config} {memory : Assembly.MemoryImport} {cell : UInt32}
  {callee : Callee} {inst linear : Nat}

theorem instance_of_fixture {x : Instance} (h : s.instances[inst]?.map Instance.fixture = some x) :
    ∃ y, s.instances[inst]? = some y ∧ y.module = x.module ∧ y.callees = x.callees ∧
      y.memory = x.memory ∧ y.closing = x.closing := by
  obtain ⟨y, hy, rfl⟩ := Option.map_eq_some_iff.1 h
  exact ⟨y, hy, rfl, rfl, rfl, rfl⟩

theorem linked_accumulator (pageLimit : Nat) :
    (s.linked (accumulator c memory cell).meaning pageLimit
        [.func callee, .memory linear]).fixture =
      seated (accumulator c memory cell).meaning callee s.instances.size linear :=
  rfl

theorem enter?_pointerCall {index : Nat} {code : List Instr}
    (h : s.instances[inst]?.map Instance.fixture =
      some (seated (accumulator c memory cell).meaning callee inst linear))
    (hfunc : (accumulator c memory cell).meaning.funcs[index - 1]? =
      some { typeIndex := index, code := code })
    (htypes : (accumulator c memory cell).types[index]? = some pointerType)
    (htype : (accumulator c memory cell).meaning.funcType? index = some pointerType)
    (arg : UInt32) :
    s.enter? inst index [arg.toUInt64] = some (pointerCall inst index arg code []) := by
  obtain ⟨y, hy, hmodule, -⟩ := instance_of_fixture h
  have himported : (accumulator c memory cell).meaning.importedFuncs.length = 1 := rfl
  have htypes : (accumulator c memory cell).meaning.types[index]? = some pointerType := htypes
  have hstart : Activation.start? (accumulator c memory cell).meaning index [arg.toUInt64] =
      some { locals := [arg.toUInt64], code := code } := by
    simp [Activation.start?, himported, hfunc, htypes, pointerType, ValType.clip]
  have henter : Machine.enter? (accumulator c memory cell).meaning index [arg.toUInt64] = some _ :=
    hstart
  simp [Store.enter?, hy, hmodule, seated, htype, henter, pointerCall]

variable {index : Nat} {arg : UInt32} {code : List Instr} {stack : List UInt64} {rest : List Frame}

theorem step_pointerCall_localGet :
    step s (pointerCall inst index arg (.localGet 0 :: code) stack :: rest) =
      .running s (pointerCall inst index arg code (arg.toUInt64 :: stack) :: rest) :=
  step_localGet rfl rfl

theorem step_pointerCall_i32Const (v : UInt32) :
    step s (pointerCall inst index arg (.i32Const v.toInt32 :: code) stack :: rest) =
      .running s (pointerCall inst index arg code (v.toUInt64 :: stack) :: rest) :=
  step_i32Const rfl

theorem step_pointerCall_i32Store {address v old : UInt32}
    (hlinear : s.linearOf? inst = some linear)
    (hword : s.word? linear address.toNat = some old) :
    step s (pointerCall inst index arg (.i32Store 0 :: code)
        (v.toUInt64 :: address.toUInt64 :: stack) :: rest) =
      .running (s.setWord linear address.toNat v)
        (pointerCall inst index arg code stack :: rest) := by
  have haddress : effective address.toUInt64 0 = address.toNat := by simp [effective]
  have hstep : step s (pointerCall inst index arg (.i32Store 0 :: code)
      (v.toUInt64 :: address.toUInt64 :: stack) :: rest) = _ :=
    step_i32Store rfl rfl hlinear (by rwa [haddress])
  rwa [haddress, UInt32.toUInt32_toUInt64] at hstep

theorem step_pointerCall_i32AtomicRmwAdd {address v old : UInt32}
    (hlinear : s.linearOf? inst = some linear)
    (hword : s.word? linear address.toNat = some old) (haligned : address.toNat % 4 = 0) :
    step s (pointerCall inst index arg (.i32AtomicRmwAdd 0 :: code)
        (v.toUInt64 :: address.toUInt64 :: stack) :: rest) =
      .running (s.setWord linear address.toNat (old + v))
        (pointerCall inst index arg code (old.toUInt64 :: stack) :: rest) := by
  have haddress : effective address.toUInt64 0 = address.toNat := by simp [effective]
  have hstep : step s (pointerCall inst index arg (.i32AtomicRmwAdd 0 :: code)
      (v.toUInt64 :: address.toUInt64 :: stack) :: rest) = _ :=
    step_i32AtomicRmwAdd rfl rfl hlinear (by rwa [haddress]) (by rwa [haddress])
  rwa [haddress, UInt32.toUInt32_toUInt64] at hstep

end

end GuestThreads.Wasm
