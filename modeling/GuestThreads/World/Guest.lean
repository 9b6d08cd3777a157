import GuestThreads.World.Engine

/-!
# Driving guests and bridges

A guest is driven in the same way whether it is real or scripted. Bridges put their operations in
front of a guest.
-/

namespace GuestThreads.World

variable [Wasm.Machine]

/-- Add a line to a scripted guest's log, with the state of the worker that uses it. -/
def noteScripted (k : Nat) (line : String) : Act Unit :=
  modify fun w => { w with scripted := w.scripted.modify k fun g =>
    let state := match g.worker.bind (w.workers[·]?) with
      | some worker => " [" ++ worker.progress.state.name ++ "]"
      | none => ""
    { g with log := g.log ++ [line ++ state] } }

def scriptedGuest (k : Nat) : Try Scripted := do
  match (← get).scripted[k]? with
  | some g => return g
  | none => throw unknown

/-- Post signals, then fail or yield a value. -/
def playBack {α : Type} (sink : Option Sink) (signals : List Signal) (error : Option Fault)
    (value : α) : Try α := do
  if sink.isSome then signals.forM fun s => (postSignal sink s : Act Unit)
  match error with
  | some f => throw f
  | none => return value

namespace Guest

/-- The parameter types of an exported function. -/
def params? (g : Guest) (name : String) (w : World) : Option (List Wasm.ValType) :=
  match g with
  | .live k => (w.functionType? k name).map (·.params)
  | .scripted k => do
    let f ← (← w.scripted[k]?).functions.lookup name
    return f.params

def call (g : Guest) (cancelled : Bool) (name : String) (args : List UInt64) :
    Try (List UInt64) := do
  match g with
  | .live k => callInstance k name args cancelled
  | .scripted k =>
    noteScripted k (Scripted.callLine name args)
    let s ← scriptedGuest k
    match s.functions.lookup name with
    | none => throw (.external (.noFunction name))
    | some f => playBack s.sink f.signals f.error f.results

def global (g : Guest) (name : String) (w : World) : Except Fault UInt64 :=
  match g with
  | .live k => w.instanceGlobal k name
  | .scripted k =>
    match w.scripted[k]? with
    | some s => s.global name
    | none => .error unknown

def setGlobal (g : Guest) (name : String) (v : UInt32) : Try Unit := do
  match g with
  | .live k => setInstanceGlobal k name v
  | .scripted k =>
    noteScripted k (Scripted.setLine name v)
    match (← scriptedGuest k).setGlobalErrors.lookup name with
    | some f => throw f
    | none => return ()

def close (g : Guest) : Try Unit := do
  match g with
  | .live k => closeInstance k
  | .scripted k =>
    noteScripted k "close"
    match (← scriptedGuest k).closeError with
    | some f => throw f
    | none => return ()

/-- The guest's memory by its number in the store. A scripted guest has none. -/
def memory? (g : Guest) (w : World) : Option Nat :=
  match g with
  | .live k => w.instanceMemory? k
  | .scripted _ => none

end Guest

def newBridge (g : Guest) (ops : List (String × Bridge.Op)) : Act Nat :=
  modifyGet fun w =>
    (w.bridges.size, { w with bridges := w.bridges.push { guest := g, bridge := { ops := ops } } })

def bridgeEntry (k : Nat) : Try BridgeEntry := do
  match (← get).bridges[k]? with
  | some b => return b
  | none => throw unknown

def bridgeClosed (w : World) (k : Nat) : Bool := (w.bridges[k]?).any (·.bridge.closed)

def shutBridge (w : World) (k : Nat) : World :=
  { w with bridges := w.bridges.modify k fun e => { e with bridge.closed := true } }

/-- The guest behind bridge `k`. -/
def Guest.handle (k : Nat) (g : Guest) (cancelled : Bool) : Handle World where
  closed w := w.bridgeClosed k
  shut w := w.shutBridge k
  hasFunction name w := ((params? g name w).isSome, w)
  call name args w := (call g cancelled name args).run w
  global name w := (global g name w, w)
  memory w := ((memory? g w).bind (w.store.memories[·]?), w)
  close w := (close g).run w

def bridgeGlobal (k : Nat) (name : String) : Try UInt64 := do
  let b ← bridgeEntry k
  ExceptT.mk (Bridge.global (Guest.handle k b.guest false) name)

def closeBridge (k : Nat) : Try Unit := do
  let b ← bridgeEntry k
  ExceptT.mk (Bridge.close (Guest.handle k b.guest false))

/-- The memory behind an open bridge, by its number in the store. -/
def bridgeMemory? (w : World) (k : Nat) : Option Nat := do
  let b ← w.bridges[k]?
  if b.bridge.closed then none else Guest.memory? b.guest w

end GuestThreads.World
