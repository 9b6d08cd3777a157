import GuestThreads.World.Worker

/-!
# What runtimes do

Loading modules, spawning threads from them, waiting for the threads, and closing. A load is made of
three parts: looking whether the runtime is open, preparing the module, and registering it.
-/

namespace GuestThreads.World

variable [Wasm.Machine]

def newRuntime (config : Option Config) : Try Nat := do
  let c := config.getD {}
  liftExcept c.validate
  modifyGet fun w => (w.runtimes.size, { w with runtimes := w.runtimes.push { config := c } })

def runtime (k : Nat) : Try Runtime := do
  match (← get).runtimes[k]? with
  | some r => return r
  | none => throw unknown

def loadedModule (k : Nat) : Try LoadedModule := do
  match (← get).modules[k]? with
  | some m => return m
  | none => throw unknown

def setModule (k : Nat) (f : LoadedModule → LoadedModule) : Act Unit :=
  modify fun w => { w with modules := w.modules.modify k f }

/-- The first part of a load. -/
def checkOpen (k : Nat) : Try Unit := do
  if (← runtime k).closed then
    throw (.report { phase := .load, kind := .closed, detail := "runtime closed" })

/-- Run an action on a new engine; if it fails, the engine is closed. -/
def orCloseEngine {α : Type} (e : Nat) (act : Try α) (wrap : Fault → Fault) : Try α :=
  tryCatch act fun f => do
    closeEngine e
    throw (wrap f)

/-- The second part of a load: an engine, the compiled module, its memory, and room for a thread. -/
def prepare (k : Nat) (bytes : Bytes) : Try LoadedModule := do
  let config := (← runtime k).config
  let e ← newEngine (some config)
  let _ ← orCloseEngine e (compile e bytes) fun f => .loading "compile module" (some f)
  let m ← orCloseEngine e (newMemory e config.memory.minPages config.memory.maxPages) fun f =>
    .loading "create shared memory" (some f)
  let size := (← get).memorySize m
  let regions := config.regions
  let layout := Layout.ofSizes regions.base regions.stackSize regions.tlsSize
  if layout.capacity size = 0 then
    closeEngine e
    throw (.report { phase := .load, kind := .outOfBounds,
                     detail := s!"no thread region fits in {size.toNat} bytes of memory" })
  return { runtime := k, engine := e, memory := m, bytes := bytes, layout := layout }

/-- The last part of a load. -/
def register (k : Nat) (m : LoadedModule) : Act Nat := do
  let w ← get
  let id := w.modules.size
  set { w with
    modules := w.modules.push m
    runtimes := w.runtimes.modify k fun r => { r with modules := r.modules ++ [id] } }
  let size := w.memorySize m.memory
  log .runtime .info "module loaded"
    [("bytes", .nat m.bytes.length), ("memory_pages", .nat (w.memoryPages m.memory).toNat),
      ("thread_capacity", .nat (m.layout.capacity size))]
  return id

/-- Load a module into a runtime. -/
def load (k : Nat) (bytes : Bytes) : Try Nat := do
  checkOpen k
  let m ← prepare k bytes
  register k m

/-- Make a worker for the next thread of a module, and enter the thread with its region. -/
def enterThread (k : Nat) (m : LoadedModule) (region : Region) (layout : Layout)
    (ops : List (String × Bridge.Op)) : Try Thread := do
  let id := m.threads.length
  let exports := (← runtime m.runtime).config.exports
  let worker ← newWorker {
    id := id, maker := .engine m.engine, exports := exports, ops := ops, outbox := .stream k id }
  let t : Thread := { id := id, region := region, worker := worker }
  setModule k fun m => { m with layout := layout, threads := m.threads ++ [t] }
  return t

/-- Reserve a region and a worker for a new thread. -/
def newThread (k : Nat) (ops : List (String × Bridge.Op)) : Try Thread := do
  let m ← loadedModule k
  if m.closed then
    throw (.report { phase := .runtime, kind := .closed, detail := "module closed" })
  match m.layout.reserve ((← get).memorySize m.memory) with
  | .error refusal => throw refusal.fault
  | .ok (region, layout) => enterThread k m region layout ops

/-- Record how a thread ended. The first fault of a module's threads is kept. -/
def finishThread (k : Nat) (t : Nat) (r : Except Fault Nat) : Act Unit := do
  setModule k fun m => { m with
    threads := m.threads.modify t (·.finish r)
    firstError := m.firstError.or (match r with | .error f => some f | .ok _ => none) }
  if let .error f := r then
    log .runtime .warn "thread failed" [("thread", .nat t), ("error", .fault f)]

/-- Spawn a thread and let it run until its entrypoint returns. -/
def spawn (k : Nat) (closurePtr : UInt32) (ops : List (String × Bridge.Op)) (cancelled : Bool) :
    Try Nat := do
  let t ← newThread k ops
  let m ← loadedModule k
  log .runtime .debug "thread spawned"
    [("thread", .nat t.id), ("stack_ptr", .nat t.region.stackPtr.toNat),
      ("tls_ptr", .nat t.region.tlsPtr.toNat), ("closure_ptr", .nat closurePtr.toNat)]
  let r ← attempt (runWorker t.worker (.message {
    bytes := m.bytes, memory := some m.memory, stackPtr := t.region.stackPtr
    tlsPtr := t.region.tlsPtr, closurePtr := closurePtr }) cancelled)
  finishThread k t.id r
  return t.id

/-- Wait for all threads; the first fault among them is reported. -/
def wait (k : Nat) : Try Unit := do
  match (← loadedModule k).firstError with
  | some f => throw f
  | none => return ()

/-- Take note that a module is closed. Its threads are returned, unless it was closed before. -/
def shutModule (k : Nat) : Try (Option (List Thread)) := do
  let m ← loadedModule k
  if m.closed then return none
  setModule k fun m => { m with closed := true }
  return some m.threads

/-- Close the bridge of a thread, if it has one. -/
def leaveThread (t : Thread) : Act Unit :=
  match t.bridge with
  | none => return ()
  | some b => do
    let _ ← (closeBridge b).run

/-- Close a module: its threads' bridges, its stream and its engine. -/
def closeModule (k : Nat) : Try Unit := do
  match ← shutModule k with
  | none => return ()
  | some threads =>
    (threads.forM leaveThread : Act Unit)
    setModule k fun m => { m with stream := m.stream.close }
    let m ← loadedModule k
    log .runtime .debug "module closed"
      [("threads", .nat m.threads.length), ("undelivered_signals", .nat m.stream.pending)]
    closeEngine m.engine

/-- Drop the signals that no one received. -/
def discardSignals (k : Nat) : Try Unit := do
  let m ← loadedModule k
  if 0 < m.stream.pending then
    log .runtime .debug "signals discarded" [("count", .nat m.stream.pending)]
  setModule k fun m => { m with stream := m.stream.discard }

/-- Take note that a runtime is closed. Its modules are returned and no longer belong to it. -/
def shutRuntime (k : Nat) : Try (List Nat) := do
  let r ← runtime k
  modify fun w => { w with runtimes := w.runtimes.modify k fun r =>
    { r with modules := [], closed := true } }
  return r.modules

/-- Close a runtime with all its modules, and drop their signals. -/
def closeRuntime (k : Nat) : Try Unit := do
  for m in ← shutRuntime k do
    closeModule m
    discardSignals m

/-- What shows of a thread while it runs and afterwards. -/
structure ThreadStatus where
  state : Worker.State := .uninitialized
  failed : Bool := false
  /-- How many signals the thread posted. -/
  signals : UInt64 := 0

def threadStatus (w : World) (t : Thread) : ThreadStatus :=
  match w.workers[t.worker]? with
  | none => {}
  | some e =>
    { state := e.progress.state, failed := e.progress.failed, signals := w.relayCount e.relay }

/-- Take all signals that wait in a module's stream, in order of their threads. The flag tells
whether more may come. -/
def takeSignals (k : Nat) : Try (List ThreadSignal × Bool) := do
  let m ← loadedModule k
  let (signals, stream) := m.stream.drain
  let (next, stream) := stream.recv
  setModule k fun m => { m with stream := stream }
  return (signals.mergeSort fun a b => a.thread ≤ b.thread, next ≠ .ended)

end GuestThreads.World
