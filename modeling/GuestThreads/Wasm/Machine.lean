import GuestThreads.Wasm.Memory
import GuestThreads.Wasm.Module
import GuestThreads.Wasm.Trap

/-!
# Running guest code

Binaries are compiled and guest code is run by a machine. What it makes of a binary, and how the
code of a function runs, is up to the machine. What code can reach is not: it works on the globals
and the memory of its own instance, and it calls functions by their index. Calls are resolved here,
by what the functions of an instance are linked to, and a call of a function of the host is a
question that a step reports. The thread goes on once the host has answered.

A thread is its stack of active calls, innermost first. Several threads can take turns on one store
of memories and instances: a step depends on nothing else.
-/

namespace GuestThreads.Wasm

/-! ## Stores -/

/-- A function of the host, by the name it is imported under. -/
structure HostFunc where
  name : String
  type : FuncType
  /-- The number of the host's module that it belongs to. -/
  home : Nat := 0
deriving DecidableEq

/-- What a function index stands for. -/
inductive Callee where
  /-- Function `index` of an instance. -/
  | code (inst index : Nat)
  | host (function : HostFunc)
deriving DecidableEq

/-- Whom a function belongs to. -/
inductive Owner where
  | instance (inst : Nat)
  /-- A module of the host. -/
  | host (home : Nat)
deriving DecidableEq

def Callee.owner : Callee → Owner
  | .code inst _ => .instance inst
  | .host function => .host function.home

/-- Why an instance or a module of the host is closed. -/
inductive Closing where
  /-- It was given up by those who made it. -/
  | released
  /-- A call found its context cancelled. -/
  | cancelled
deriving DecidableEq

structure Instance where
  module : Module
  /-- What the functions are, imported ones first. -/
  callees : Array Callee := #[]
  globals : Array UInt64 := #[]
  memory : Option Nat := none
  /-- A closed instance may still run, but its calls report the closing. -/
  closing : Option Closing := none
  /-- Whatever else a machine keeps for an instance. -/
  rest : Bytes := []

structure Store where
  memories : Array Memory := #[]
  instances : Array Instance := #[]
  /-- The modules of the host that are closed. -/
  closedHosts : List (Nat × Closing) := []

/-- What the code of an instance can read and change. -/
structure Scope where
  globals : Array UInt64 := #[]
  memory : Option Memory := none
  rest : Bytes := []

namespace ValType

/-- The bits of a word that count for a type. -/
def clip (t : ValType) (v : UInt64) : UInt64 :=
  match t with
  | .i32 => v.toUInt32.toUInt64
  | .f32 => v.toUInt32.toUInt64
  | _ => v

end ValType

namespace Store

def setMemory (s : Store) (m : Nat) (memory : Memory) : Store :=
  { s with memories := s.memories.setIfInBounds m memory }

def global (s : Store) (inst index : Nat) : UInt64 :=
  ((s.instances[inst]?).bind fun i => i.globals[index]?).getD 0

def setGlobal (s : Store) (inst index : Nat) (v : UInt64) : Store :=
  { s with instances := s.instances.modify inst fun i =>
      { i with globals := i.globals.setIfInBounds index v } }

/-- Close an instance, unless it is closed already. -/
def closeInstance (s : Store) (inst : Nat) (why : Closing) : Store :=
  { s with instances := s.instances.modify inst fun i =>
      if i.closing.isSome then i else { i with closing := some why } }

/-- Close a module of the host, unless it is closed already. -/
def closeHost (s : Store) (home : Nat) (why : Closing) : Store :=
  if (s.closedHosts.lookup home).isSome then s
  else { s with closedHosts := (home, why) :: s.closedHosts }

def close (s : Store) : Owner → Closing → Store
  | .instance inst, why => s.closeInstance inst why
  | .host home, why => s.closeHost home why

def closing? (s : Store) : Owner → Option Closing
  | .instance inst => (s.instances[inst]?).bind fun i => i.closing
  | .host home => s.closedHosts.lookup home

/-- The memory of an instance, by its number in the store. -/
def linearOf? (s : Store) (inst : Nat) : Option Nat := (s.instances[inst]?).bind (·.memory)

/-- The module of an instance. -/
def moduleOf (s : Store) (inst : Nat) : Module := ((s.instances[inst]?).map (·.module)).getD {}

/-- What the code of an instance finds. -/
def scope (s : Store) (inst : Nat) : Scope :=
  match s.instances[inst]? with
  | none => {}
  | some x =>
    { globals := x.globals, rest := x.rest, memory := x.memory.bind (s.memories[·]?) }

/-- The store once the code of an instance has left its scope like this. -/
def leave (s : Store) (inst : Nat) (v : Scope) : Store :=
  { s with
    instances := s.instances.modify inst fun x => { x with globals := v.globals, rest := v.rest }
    memories :=
      match s.linearOf? inst, v.memory with
      | some m, some memory => s.memories.setIfInBounds m memory
      | _, _ => s.memories }

end Store

/-! ## Machines -/

/-- What a step of a function's code leads to. -/
inductive Move (β : Type) where
  /-- The code goes on, and leaves its scope as it is now. -/
  | ran (v : Scope) (body : β)
  /-- The code calls a function of its instance and waits for the results. -/
  | call (index : Nat) (args : List UInt64) (body : β)
  /-- The code has come to its end. Its results are the topmost operands, the last one first. -/
  | ended (operands : List UInt64)
  | trapped (reason : Trap)
  /-- The code has found its instance closed. -/
  | closed (why : Closing)

/-- What compiles binaries and runs the code of their functions. -/
class Machine where
  /-- The module that a binary denotes, if the machine accepts it and no memory may have more than
  `pageLimit` pages. -/
  compile? : (pageLimit : Nat) → Bytes → Option Module
  /-- What instantiation makes of the scope of a new instance, and why it is refused. -/
  fill : Module → Scope → Scope × Option String
  /-- The code of a function between two steps. -/
  Body : Type
  /-- The code of a function that is about to start. -/
  enter? : Module → (index : Nat) → (args : List UInt64) → Option Body
  /-- A step of code of a module's instance, which may be closed. -/
  step : Module → Option Closing → Scope → Body → Move Body
  /-- The code has got the results of the function that it called, the last one first. -/
  resume : (results : List UInt64) → Body → Body
  /-- Whether there is room for one more call of guest code on top of these. -/
  room : List Body → Bool
  /-- The number of steps after which a call is given up. -/
  stepLimit : Nat

variable [Machine]

/-- An active call of guest code. -/
structure Frame where
  inst : Nat
  index : Nat
  type : FuncType
  body : Machine.Body

/-- What a step leads to. -/
inductive Next where
  | running (store : Store) (frames : List Frame)
  /-- The host is asked for the results of a function, and the frames wait for them. -/
  | asked (function : HostFunc) (args : List UInt64) (frames : List Frame)
  | finished (results : List UInt64)
  | trapped (reason : Trap)
  | closed (why : Closing)

/-- A call of a function with the given arguments, about to start. -/
def Store.enter? (s : Store) (inst index : Nat) (args : List UInt64) : Option Frame := do
  let i ← s.instances[inst]?
  let t ← i.module.funcType? index
  let body ← Machine.enter? i.module index args
  return { inst := inst, index := index, type := t, body := body }

/-- The calls that the frames stand for. -/
def activeCalls (frames : List Frame) : List Call :=
  frames.map fun f => { index := f.index, type := f.type }

/-- Hand results to the innermost call, the last one first. -/
def handBack (results : List UInt64) : List Frame → List Frame
  | [] => []
  | f :: rest => { f with body := Machine.resume results f.body } :: rest

/-- Start a call of a function, for whose results the frames wait. -/
def invoke (s : Store) (args : List UInt64) (frames : List Frame) : Callee → Next
  | .host function => .asked function args frames
  | .code inst target =>
    match s.enter? inst target args with
    | none => .trapped .unreachable
    | some called =>
      if Machine.room (frames.map (·.body)) then .running s (called :: frames)
      else .trapped .stackOverflow

/-- Start a call from frame `f`, which waits for the results. -/
def startCall (s : Store) (f : Frame) (rest : List Frame) (index : Nat) (args : List UInt64) :
    Next :=
  let inst? := s.instances[f.inst]?
  match inst?.bind (fun i => i.callees[index]?), inst?.bind (fun i => i.module.funcType? index) with
  | some callee, some t =>
    if args.length = t.params.length then invoke s args (f :: rest) callee
    else .trapped .unreachable
  | _, _ => .trapped .unreachable

/-- What a move of the innermost call's code leads to. A call that has come to its end hands its
results to its caller. -/
def follow (s : Store) (f : Frame) (rest : List Frame) : Move Machine.Body → Next
  | .ran v body => .running (s.leave f.inst v) ({ f with body := body } :: rest)
  | .call index args body => startCall s { f with body := body } rest index args
  | .ended operands =>
    let results := operands.take f.type.results.length
    match rest with
    | [] => .finished results.reverse
    | caller :: rest => .running s (handBack results (caller :: rest))
  | .trapped reason => .trapped reason
  | .closed why => .closed why

/-- The next move of a call's code. -/
def Frame.move (f : Frame) (s : Store) : Move Machine.Body :=
  Machine.step (s.moduleOf f.inst) (s.closing? (.instance f.inst)) (s.scope f.inst) f.body

/-- One step of a thread. -/
def step (s : Store) : List Frame → Next
  | [] => .finished []
  | f :: rest => follow s f rest (f.move s)

/-- How a run ended. -/
inductive Ending where
  | finished (results : List UInt64)
  | trapped (reason : Trap) (calls : List Call)
  /-- The code found its instance closed. -/
  | closed (why : Closing)
  /-- The run was given up before its end. -/
  | exhausted

/-- What the functions of the host do, in a state of type `σ`. They may change the store. -/
abbrev Host (σ : Type) :=
  HostFunc → List UInt64 → σ × Store → Except Trap (List UInt64) × σ × Store

/-- At most `steps` steps of a thread, with the host's answers in between. -/
def run {σ : Type} (host : Host σ) : (steps : Nat) → σ → Store → List Frame → Ending × σ × Store
  | 0, state, s, _ => (.exhausted, state, s)
  | steps + 1, state, s, frames =>
    match step s frames with
    | .running s' frames' => run host steps state s' frames'
    | .asked function args frames' =>
      match host function args (state, s) with
      | (.ok results, state', s') =>
        run host steps state' s' (handBack results.reverse frames')
      | (.error reason, state', s') => (.trapped reason (activeCalls frames), state', s')
    | .finished results => (.finished results, state, s)
    | .trapped reason => (.trapped reason (activeCalls frames), state, s)
    | .closed why => (.closed why, state, s)

end GuestThreads.Wasm
