import GuestThreads.Bridge
import GuestThreads.Log
import GuestThreads.Orchestra
import GuestThreads.Scripted
import GuestThreads.Trace
import GuestThreads.Worker

/-!
# The world

Everything that exists at a moment: engines, memories, instances, workers, bridges, loaded modules,
and the records written so far. An action changes the world and yields a value; an action that fails
keeps the changes made until then.
-/

namespace GuestThreads

/-- An instance, real or scripted. -/
inductive Guest where
  | live (k : Nat)
  | scripted (k : Nat)
deriving DecidableEq

/-- Where a relay passes its signals on to. -/
inductive Outbox where
  | none
  | inbox (k : Nat)
  /-- The stream of a loaded module, on behalf of a thread. -/
  | stream (module thread : Nat)
deriving DecidableEq

/-- Who makes the instance of a worker. -/
inductive Maker where
  | engine (k : Nat)
  | scripted (k : Nat)
deriving DecidableEq

/-- A worker and how it is set up. -/
structure WorkerEntry where
  id : Int := 0
  maker : Maker
  exports : Config.Exports := {}
  ops : List (String × Bridge.Op) := []
  relay : Nat
  /-- Whether the worker writes log records. -/
  logs : Bool := true
  progress : Worker.Progress := {}
  bridge : Option Nat := none
  /-- The span of the bring-up under way. -/
  span : Trace.Span := { name := "worker.bootstrap" }

/-- A bridge and the instance behind it. -/
structure BridgeEntry where
  guest : Guest
  bridge : Bridge

structure World where
  store : Wasm.Store := {}
  engines : Array Engine := #[]
  memories : Array SharedMemory := #[]
  instances : Array LiveInstance := #[]
  scripted : Array Scripted := #[]
  inboxes : Array (List Signal) := #[]
  relays : Array (Relay × Outbox) := #[]
  workers : Array WorkerEntry := #[]
  bridges : Array BridgeEntry := #[]
  runtimes : Array Runtime := #[]
  modules : Array LoadedModule := #[]
  logs : Array Log.Record := #[]
  spans : Array Trace.Span := #[]

abbrev Act := StateM World

/-- An action that may fail. -/
abbrev Try := ExceptT Fault Act

namespace World

/-- The fault of a number that stands for nothing. -/
def unknown : Fault := .plain "no such thing"

def log (source : Log.Source) (level : Log.Level) (message : String)
    (fields : List (String × Log.Value)) : Act Unit :=
  let record : Log.Record :=
    { level := level, source := source, message := message, fields := fields }
  modify fun w => { w with logs := w.logs.push record }

/-- An outcome as an action. -/
def liftExcept {α : Type} (r : Except Fault α) : Try α := ExceptT.mk (pure r)

/-- The outcome of an action, whether it fails or not. -/
def attempt {α : Type} (act : Try α) : Try (Except Fault α) := ExceptT.lift act.run

def engine (k : Nat) : Try Engine := do
  match (← get).engines[k]? with
  | some e => return e
  | none => throw unknown

def memory (k : Nat) : Try SharedMemory := do
  match (← get).memories[k]? with
  | some m => return m
  | none => throw unknown

def liveInstance (k : Nat) : Try LiveInstance := do
  match (← get).instances[k]? with
  | some i => return i
  | none => throw unknown

def setEngine (k : Nat) (f : Engine → Engine) : Act Unit :=
  modify fun w => { w with engines := w.engines.modify k f }

/-- The linear memory behind a shared memory. -/
def linear? (w : World) (k : Nat) : Option Wasm.Memory := do
  w.store.memories[(← w.memories[k]?).linear]?

/-- The size of a shared memory in bytes. -/
def memorySize (w : World) (k : Nat) : UInt32 := MemoryView.size (w.linear? k)

/-- The number of whole pages in the size of a shared memory. -/
def memoryPages (w : World) (k : Nat) : UInt32 := w.memorySize k / 65536

/-- Hand a signal to a thread's stream, an inbox, or no one. -/
def deliver (outbox : Outbox) (s : Signal) : Act Unit :=
  modify fun w =>
    match outbox with
    | .none => w
    | .inbox k => { w with inboxes := w.inboxes.modify k (· ++ [s]) }
    | .stream m t =>
      { w with modules := w.modules.modify m fun loaded =>
          { loaded with stream := loaded.stream.post { thread := t, signal := s } } }

/-- Pass a signal through a relay. -/
def relaySignal (k : Nat) (s : Signal) : Act Unit := do
  match (← get).relays[k]? with
  | none => return ()
  | some (relay, outbox) =>
    let (relay', out) := relay.post s
    modify fun w => { w with relays := w.relays.setIfInBounds k (relay', outbox) }
    out.forM (deliver outbox)

/-- What becomes of a signal that guest code posts. -/
def postSignal (sink : Option Sink) (s : Signal) : Act Unit :=
  match sink with
  | none =>
    log .engine .debug "signal dropped, no sink bound"
      [("hi", .nat s.hi.toNat), ("lo", .nat s.lo.toNat)]
  | some (.inbox k) => deliver (.inbox k) s
  | some (.relay k) => relaySignal k s

/-- How many signals a relay has passed on. -/
def relayCount (w : World) (k : Nat) : UInt64 :=
  match w.relays[k]? with
  | some (relay, _) => relay.count
  | none => 0

end World

end GuestThreads
