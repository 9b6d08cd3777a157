import GuestThreads.Wasm.Trampoline
import GuestThreads.World

/-!
# What engines do

Making engines, compiling, creating shared memories, and instantiating and calling guests.
-/

namespace GuestThreads.World

variable [Wasm.Machine]

/-- Make an engine; no settings means the default ones. -/
def newEngine (config : Option Config) : Try Nat := do
  let c := config.getD {}
  if let .error f := c.validate then throw f
  let limit := c.engine.memoryLimitPages
  if Wasm.maxPages < limit.toNat then throw (.external (.pageLimit limit))
  log .engine .debug "engine created"
    [("memory_limit_pages", .nat limit.toNat),
      ("close_on_context_done", .flag c.engine.closeOnContextDone)]
  modifyGet fun w => (w.engines.size, { w with engines := w.engines.push { config := c } })

/-- Compile a binary, or find it among those compiled before. -/
def compile (k : Nat) (bytes : Bytes) : Try Compiled := do
  let e ← engine k
  match e.cached? bytes with
  | some c => return c
  | none =>
    match e.accept? bytes with
    | none => throw (.external .invalidModule)
    | some m =>
      setEngine k fun e => { e with cache := e.cache ++ [(bytes, m)] }
      log .engine .debug "module compiled"
        [("bytes", .nat bytes.length),
          ("imported_functions", .nat m.importedFuncs.length),
          ("exported_functions", .nat m.exportedFuncs)]
      return { place := e.cache.length, module := m }

/-- Close an engine with everything instantiated in it. -/
def closeEngine (k : Nat) : Try Unit := do
  let e ← engine k
  modify fun w => { w with store := e.instances.foldl (·.close · .released) w.store }
  setEngine k fun e => { e with memory := none, cache := [], modules := [], closed := true }

/-- The module that stands between guests and the host when both imports share a module name. -/
def hostModule : String := "wasm-threads:host"

def hostFunction : String := "post-signal"

def refusedAs (detail reason : String) : Fault :=
  .wrap .memory .instantiation (some (.external (.refused reason))) detail

/-- Take a module name for the host's function. The module is known by the number of the memory that
it is made for. -/
def registerHost (k : Nat) (name function detail : String) : Try Unit := do
  let e ← engine k
  if e.closed then throw (refusedAs detail "runtime closed with exit_code(0)")
  if (e.modules.lookup name).isSome then
    throw (refusedAs detail s!"module[{name}] has already been instantiated")
  let functions : List Wasm.HostFunc :=
    [{ name := function, type := Wasm.signalType, home := (← get).memories.size }]
  setEngine k fun e => { e with modules := (name, .host functions) :: e.modules }

def unregister (k : Nat) (names : List String) : Act Unit :=
  setEngine k fun e => { e with modules := e.modules.filter fun m => m.1 ∉ names }

/-- The trampoline module of a configuration. -/
def trampoline (c : Config) (min max : UInt32) : Wasm.Trampoline where
  host := hostModule
  memory := some { name := c.memory.importName.name, min := min, max := max }
  funcs :=
    if c.signal.module = c.memory.importName.module then
      [{ importName := hostFunction, exportName := c.signal.name, type := Wasm.signalType }]
    else []

/-- Instantiate the trampoline module under the name that guests import the memory from. It has no
data to set up. -/
def registerEnv (k : Nat) (min max : UInt32) : Try Nat := do
  let e ← engine k
  let name := e.config.memory.importName.module
  match ((trampoline e.config min max).encode).bind e.accept? with
  | none => throw (refusedAs "compile env module" "invalid module")
  | some m =>
    if (e.modules.lookup name).isSome then
      throw (refusedAs "instantiate env module" s!"module[{name}] has already been instantiated")
    match (← get).store.instantiate e.modules e.pageLimit m with
    | .error reason => throw (refusedAs "instantiate env module" reason)
    | .ok (inst, store) =>
      modify fun w => { w with store := store }
      setEngine k fun e => { e with
        modules := (name, .instance inst) :: e.modules
        instances := .instance inst :: e.instances }
      return inst

/-- Define a memory under the name that guests import, once the host's function has the module
name `host`. If that fails, the names are free again. -/
def attachMemory (k : Nat) (host : String) (memoryName : Config.ImportName) (min max : UInt32) :
    Try Nat := do
  let env ← tryCatch (registerEnv k min max) fun f => do
    unregister k [host]
    throw f
  match ((← get).store.instances[env]?).bind (·.memory) with
  | none =>
    modify fun w => { w with store := w.store.closeInstance env .released }
    unregister k [host, memoryName.module]
    throw (.notFound .memory "memory export" memoryName.name)
  | some linear =>
    let id := (← get).memories.size
    modify fun w => { w with memories := w.memories.push {
      engine := k, linear := linear, env := env, names := [host, memoryName.module]
      minPages := min, maxPages := max } }
    setEngine k fun e => { e with memory := some id, instances := .host id :: e.instances }
    log .engine .debug "shared memory created"
      [("module", .text memoryName.module), ("name", .text memoryName.name),
        ("min_pages", .nat min.toNat), ("max_pages", .nat max.toNat)]
    return id

/-- Create the shared memory of an engine. If that fails, the engine is as it was. -/
def newMemory (k : Nat) (min max : UInt32) : Try Nat := do
  if min = 0 ∨ max < min then
    throw (.invalidInput .memory s!"invalid shared memory limits min={min.toNat} max={max.toNat}")
  let e ← engine k
  if e.memory.isSome then throw (.invalidInput .memory "engine already has a shared memory")
  let memoryName := e.config.memory.importName
  let signalName := e.config.signal
  if signalName.module = memoryName.module then
    registerHost k hostModule hostFunction "instantiate host module"
    attachMemory k hostModule memoryName min max
  else
    registerHost k signalName.module signalName.name "instantiate signal module"
    attachMemory k signalName.module memoryName min max

/-- Close the modules that export a memory. Instances that import it keep it. -/
def closeMemory (k : Nat) : Try Unit := do
  let m ← memory k
  if m.isOpen then
    modify fun w => { w with
      memories := w.memories.modify k fun m => { m with isOpen := false }
      store := (w.store.closeInstance m.env .released).closeHost k .released }
    unregister m.engine m.names
  setEngine m.engine fun e => if e.memory = some k then { e with memory := none } else e

/-- What a call on a closed instance reports. -/
def closingFault : Wasm.Closing → Fault
  | .released => .external (.refused "module closed with exit_code(0)")
  | .cancelled => .external .exited

/-- A call that is about to run. -/
inductive Entry where
  /-- Guest code, from its first frame on. -/
  | code (frame : Wasm.Frame)
  /-- The host's function, called without guest code in between. -/
  | host (args : List UInt64)

/-- Prepare a call of a function, and name its owner. -/
def enterCallee (callee : Wasm.Callee) (args : List UInt64) : Try (Wasm.Owner × Entry) := do
  match callee with
  | .host _ => return (callee.owner, .host args)
  | .code definer target =>
    match (← get).store.enter? definer target args with
    | none => throw unknown
    | some frame => return (callee.owner, .code frame)

/-- Prepare a call of function `index` of an instance in the store, and name the owner of the
function. Where the engine minds cancellation, a cancelled call does not run and closes the
owner. -/
def enterCall (e : Engine) (cancelled : Bool) (inst index : Nat) (args : List UInt64) :
    Try (Wasm.Owner × Entry) := do
  let some i := (← get).store.instances[inst]? | throw unknown
  let some callee := i.callees[index]? | throw unknown
  let some t := i.module.funcType? index | throw unknown
  if args.length ≠ t.params.length then
    throw (.external (.arity t.params.length args.length))
  if cancelled && e.config.engine.closeOnContextDone then
    modify fun w => { w with store := w.store.close callee.owner .cancelled }
    throw (closingFault (((← get).store.closing? callee.owner).getD .cancelled))
  enterCallee callee args

/-- What the end of guest code means for its caller. -/
def outcome (trap : Wasm.Trap → List Wasm.Call → Cause) : Wasm.Ending → Except Fault (List UInt64)
  | .finished results => .ok results
  | .trapped reason calls => .error (.external (trap reason calls))
  | .closed why => .error (closingFault why)
  | .exhausted => .error (.external (.refused "step limit reached"))

/-- Run a call to its end and hand on the signals it posts. -/
def execute (sink : Option Sink) (trap : Wasm.Trap → List Wasm.Call → Cause) (entry : Entry) :
    Try (List UInt64) := do
  match entry with
  | .code frame =>
    let (ending, signals, store) :=
      Wasm.run Wasm.signalHost Wasm.Machine.stepLimit [] (← get).store [frame]
    modify fun w => { w with store := store }
    signals.forM fun s => (postSignal sink s : Act Unit)
    liftExcept (outcome trap ending)
  | .host args =>
    match Wasm.signalOf? args with
    | none => throw unknown
    | some s =>
      postSignal sink s
      return []

/-- The results of a call, unless the owner of the function is closed. -/
def unlessClosed (owner : Wasm.Owner) (results : List UInt64) : Try (List UInt64) := do
  match (← get).store.closing? owner with
  | some why => throw (closingFault why)
  | none => return results

/-- Call function `index` of an instance in the store. -/
def callFunction (e : Engine) (sink : Option Sink) (cancelled : Bool) (inst index : Nat)
    (args : List UInt64) (trap : Wasm.Trap → List Wasm.Call → Cause := .trap) :
    Try (List UInt64) := do
  let (owner, entry) ← enterCall e cancelled inst index args
  let results ← execute sink trap entry
  unlessClosed owner results

/-- The start function in the words of a refusal. -/
def startName (m : Wasm.Module) (index : Nat) : String :=
  let names := (m.exports.filter fun e =>
    e.kind = .func ∧ e.index = index + m.importedFuncs.length).map fun e => Text.quoted e.name
  s!"function[{index}]" ++
    if names.isEmpty then "" else
      " export[" ++ String.intercalate "," (names.mergeSort fun x y => x ≤ y) ++ "]"

/-- Add an instance of a compiled module to the store. The engine as it was is told as well. -/
def install (k : Nat) (m : Wasm.Module) : Try (Engine × Nat) := do
  let e ← engine k
  match (← get).store.instantiate e.modules e.pageLimit m with
  | .error reason => throw (.external (.refused reason))
  | .ok (inst, store) =>
    modify fun w => { w with store := store }
    setEngine k fun e => { e with instances := .instance inst :: e.instances }
    return (e, inst)

/-- Let the machine set up a new instance. -/
def fill (inst : Nat) : Try Unit := do
  let (refusal, store) := (← get).store.fill inst
  modify fun w => { w with store := store }
  match refusal with
  | some reason => throw (.external (.refused reason))
  | none => return ()

/-- Link a compiled module, set up its instance and run its start function. -/
def link (k : Nat) (m : Wasm.Module) (sink : Option Sink) (cancelled : Bool) : Try Nat := do
  let (e, inst) ← install k m
  fill inst
  if let some start := m.start then
    let _ ← callFunction e sink cancelled inst start [] (.startTrap (startName m start))
  return inst

/-- Compile a guest that imports a shared memory of this engine. -/
def vet (k : Nat) (bytes : Bytes) (shared : Option Nat) : Try (Nat × Wasm.Module) := do
  let e ← engine k
  let some memoryId := shared | throw (.external .noMemory)
  let m ← memory memoryId
  if m.engine ≠ k then throw (.external .foreignMemory)
  if !m.isOpen then throw (.external .closedMemory)
  let pages := (← get).memoryPages memoryId
  if let .error f := checkMemoryImport e.config.memory.importName pages m.maxPages bytes then
    throw f
  let compiled ← compile k bytes
  return (memoryId, compiled.module)

/-- Enter an instance that was linked. -/
def enlist (k memoryId inst : Nat) (sink : Option Sink) : Act Nat :=
  modifyGet fun w => (w.instances.size, { w with instances := w.instances.push {
    inst := inst, engine := k, memory := memoryId, sink := sink } })

/-- Instantiate a guest that imports a shared memory of this engine. -/
def instantiate (k : Nat) (bytes : Bytes) (shared : Option Nat) (sink : Option Sink)
    (cancelled : Bool) : Try Nat :=
  tryCatch
    (do
      let (memoryId, m) ← vet k bytes shared
      let inst ← link k m sink cancelled
      enlist k memoryId inst sink)
    fun f => throw (.instantiation (some f))

/-- An export of an open instance, and the instance in the store. -/
def export? (w : World) (i : LiveInstance) (kind : Wasm.ExportKind) (name : String) :
    Option (Wasm.Instance × Wasm.Export) := do
  if i.isOpen then
    let inst ← w.store.instances[i.inst]?
    let e ← inst.module.export? name
    if e.kind = kind then some (inst, e) else none
  else none

/-- The type of an exported function. -/
def functionType? (w : World) (k : Nat) (name : String) : Option Wasm.FuncType := do
  let (inst, e) ← w.export? (← w.instances[k]?) .func name
  inst.module.funcType? e.index

/-- An exported function, by its index, with the instance that exports it and the engine. -/
def findFunction (k : Nat) (name : String) : Try (LiveInstance × Engine × Nat) := do
  let i ← liveInstance k
  match (← get).export? i .func name with
  | none => throw (.external (.noFunction name))
  | some (_, e) => return (i, ← engine i.engine, e.index)

def callInstance (k : Nat) (name : String) (args : List UInt64) (cancelled : Bool) :
    Try (List UInt64) := do
  let (i, e, index) ← findFunction k name
  callFunction e i.sink cancelled i.inst index args

/-- The value of an exported global. -/
def instanceGlobal (w : World) (k : Nat) (name : String) : Except Fault UInt64 :=
  match w.instances[k]? with
  | none => .error unknown
  | some i =>
    if !i.isOpen then .error (.notInitialized .runtime "instance")
    else
      match w.export? i .global name with
      | none => .error (.notFound .runtime "global" name)
      | some (_, e) => .ok (w.store.global i.inst e.index)

/-- Write an exported global, which has to be a mutable `i32`. -/
def setInstanceGlobal (k : Nat) (name : String) (v : UInt32) : Try Unit := do
  let i ← liveInstance k
  if !i.isOpen then throw (.notInitialized .stack "instance")
  match (← get).export? i .global name with
  | none => throw (.missingExport .stack name)
  | some (inst, e) =>
    match inst.module.globalType? e.index with
    | none => throw unknown
    | some t =>
      if t.type ≠ .i32 then throw (.typeMismatch .stack name "i32" t.type.name)
      if !t.mutable then
        throw (.typeMismatch .stack name "mutable global" "immutable global")
      modify fun w => { w with store := w.store.setGlobal i.inst e.index v.toUInt64 }

/-- Close an instance. Its memory stays. -/
def closeInstance (k : Nat) : Try Unit := do
  let i ← liveInstance k
  modify fun w => { w with
    instances := w.instances.modify k fun i => { i with isOpen := false }
    store := w.store.closeInstance i.inst .released }

/-- The memory of an open instance, by its number in the store. -/
def instanceMemory? (w : World) (k : Nat) : Option Nat := do
  let i ← w.instances[k]?
  if i.isOpen then (← w.store.instances[i.inst]?).memory else none

/-- Whose memory a view shows. -/
inductive View where
  | memory (k : Nat)
  | instance (k : Nat)

/-- The linear memory that a view shows, by its number in the store. -/
def View.linear? (w : World) : View → Option Nat
  | .memory k => (w.memories[k]?).map (·.linear)
  | .instance k => w.instanceMemory? k

/-- Write to a linear memory from outside; the memory is known by its number in the store. -/
def alterMemory (k : Option Nat) (f : Option Wasm.Memory → Except Fault Wasm.Memory) :
    Try Unit := do
  let memory ← liftExcept (f (k.bind ((← get).store.memories[·]?)))
  modify fun w => { w with store := w.store.setMemory (k.getD 0) memory }

end GuestThreads.World
