import GuestThreads.World.Guest

/-!
# What workers do

A worker makes its instance with an engine or from a scripted guest. Its progress shows in log
records and in a span.
-/

namespace GuestThreads.World

variable [Wasm.Machine]

/-- How a new worker is set up. -/
structure WorkerSetup where
  id : Int := 0
  maker : Maker
  exports : Config.Exports := {}
  ops : List (String × Bridge.Op) := []
  outbox : Outbox := .none
  logs : Bool := true

/-- Make a worker and its relay. -/
def newWorker (setup : WorkerSetup) : Act Nat := do
  let w ← get
  let k := w.workers.size
  let entry : WorkerEntry := {
    id := setup.id, maker := setup.maker, exports := setup.exports, ops := setup.ops
    relay := w.relays.size, logs := setup.logs }
  let relay : Relay := { hasOutbox := setup.outbox ≠ .none }
  let scripted := match setup.maker with
    | .scripted g => w.scripted.modify g fun s => { s with worker := some k }
    | .engine _ => w.scripted
  set { w with
    workers := w.workers.push entry
    relays := w.relays.push (relay, setup.outbox)
    scripted := scripted }
  return k

def workerEntry (k : Nat) : Try WorkerEntry := do
  match (← get).workers[k]? with
  | some entry => return entry
  | none => throw unknown

def setWorker (k : Nat) (f : WorkerEntry → WorkerEntry) : Act Unit :=
  modify fun w => { w with workers := w.workers.modify k f }

/-- Make the instance of a worker, with the worker's relay for its signals. -/
def makeInstance (entry : WorkerEntry) (cancelled : Bool) (msg : Worker.Message Nat) :
    Try Guest := do
  let sink := some (Sink.relay entry.relay)
  match entry.maker with
  | .engine e => return .live (← instantiate e msg.bytes msg.memory sink cancelled)
  | .scripted k =>
    noteScripted k (Scripted.instantiateLine msg.bytes)
    modify fun w => { w with scripted := w.scripted.modify k fun g => { g with sink := sink } }
    let g ← scriptedGuest k
    playBack sink g.instantiateSignals g.instantiateError (.scripted k)

/-- The span of a bring-up at its start. -/
def bootstrapSpan (entry : WorkerEntry) (msg : Worker.Message Nat) : Trace.Span where
  name := "worker.bootstrap"
  attributes := [
    ("thread", .int entry.id),
    ("module_bytes", .nat msg.bytes.length),
    ("stack_ptr", .nat msg.stackPtr.toNat),
    ("tls_ptr", .nat msg.tlsPtr.toNat),
    ("closure_ptr", .nat msg.closurePtr.toNat),
    ("entrypoint", .text entry.exports.entrypoint)]

/-- A record of a worker, which always names its thread. -/
def workerLog (entry : WorkerEntry) (level : Log.Level) (message : String)
    (fields : List (String × Log.Value)) : Act Unit :=
  if entry.logs then log .worker level message (("thread", .int entry.id) :: fields)
  else return ()

/-- End the span of a bring-up. -/
def endSpan (k : Nat) (f : Trace.Span → Trace.Span) : Act Unit :=
  modify fun w =>
    match w.workers[k]? with
    | some entry => { w with spans := w.spans.push (f entry.span) }
    | none => w

/-- Record what happens at a worker. -/
def observe (k : Nat) (entry : WorkerEntry) (msg : Worker.Message Nat) (n : Worker.Note) :
    Act Unit := do
  match n with
  | .started =>
    setWorker k fun e => { e with
      progress := { e.progress with handled := true }
      span := bootstrapSpan entry msg }
  | .advanced state =>
    setWorker k fun e => { e with
      progress := { e.progress with state := state }
      span := e.span.event state.name }
    workerLog entry .debug "bring-up step" [("state", .text state.name)]
  | .closeFailed f => workerLog entry .debug "close failed instance" [("error", .fault f)]
  | .failed state f =>
    let signals := ((← get).relayCount entry.relay).toNat
    workerLog entry .error "thread bring-up failed"
      [("state", .text state.name), ("signals", .nat signals), ("error", .fault f)]
    endSpan k (·.fail f.message)
  | .returned =>
    let signals := ((← get).relayCount entry.relay).toNat
    workerLog entry .debug "thread entrypoint returned" [("signals", .nat signals)]
    endSpan k fun span => { span with status := .ok }
  | .ignored state =>
    workerLog entry .warn "bootstrap message ignored, worker already bootstrapped"
      [("state", .text state.name)]

/-- The guests of the world, as a worker drives them. -/
def guestDriver (entry : WorkerEntry) (cancelled : Bool) : Worker.Driver World Guest Nat where
  instantiate msg w := (makeInstance entry cancelled msg).run w
  setGlobal g name v w := (Guest.setGlobal g name v).run w
  params g name w := Guest.params? g name w
  call g name args w := (Guest.call g cancelled name args).run w
  close g w := (Guest.close g).run w

/-- The world as a worker sees it. -/
def workerHost (k : Nat) (entry : WorkerEntry) (msg : Worker.Message Nat)
    (driver : Worker.Driver World Guest Nat) : Worker.Host World Guest Nat where
  toDriver := driver
  observe n w := ((observe k entry msg n).run w).2

/-- The message that the records of a bring-up are about. -/
def announced (inbox : Worker.Inbox Nat) : Worker.Message Nat :=
  match inbox with
  | .message msg => msg
  | _ => { bytes := [], memory := none }

/-- Enter how the bring-up of a worker ended. A running thread gets a bridge, which is returned. -/
def conclude (k : Nat) (entry : WorkerEntry)
    (out : Except Fault Guest × Worker.Progress × World) : Try Nat := do
  set out.2.2
  setWorker k fun e => { e with progress := out.2.1 }
  let g ← liftExcept out.1
  let b ← newBridge g entry.ops
  setWorker k fun e => { e with bridge := some b }
  return b

/-- Let a worker act on what it finds in its inbox, by means of the given driver. -/
def runWorkerOn (driver : WorkerEntry → Worker.Driver World Guest Nat) (k : Nat)
    (inbox : Worker.Inbox Nat) : Try Nat := do
  let entry ← workerEntry k
  let host := workerHost k entry (announced inbox) (driver entry)
  conclude k entry (Worker.receive host entry.exports entry.progress inbox (← get))

/-- Let a worker act on what it finds in its inbox. -/
def runWorker (k : Nat) (inbox : Worker.Inbox Nat) (cancelled : Bool) : Try Nat :=
  runWorkerOn (guestDriver · cancelled) k inbox

end GuestThreads.World
