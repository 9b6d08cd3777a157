import GuestThreads.Config
import GuestThreads.Worker.State

/-!
# Workers

A worker brings up one thread. On its bootstrap message it instantiates the module, assigns the
stack pointer, initializes the thread-local block and enters the entrypoint, strictly in that order.
A failure ends the bring-up, and an instance that was made by then is closed.

`BringUp` says what a worker does next and how it goes on from the answer. `Worker.handle` carries
it out on a host.
-/

namespace GuestThreads

namespace Worker

/-- The bootstrap message. The pointers are passed on as they are. -/
structure Message (μ : Type) where
  bytes : Bytes
  /-- The memory to share, if any is given. -/
  memory : Option μ
  stackPtr : UInt32 := 0
  tlsPtr : UInt32 := 0
  closurePtr : UInt32 := 0

/-- What happens at a worker and is of interest to others. -/
inductive Note where
  | started
  | advanced (state : State)
  /-- The instance of a failed bring-up could not be closed properly. -/
  | closeFailed (f : Fault)
  | failed (state : State) (f : Fault)
  | returned
  /-- A message came after the first one. -/
  | ignored (state : State)

/-- The steps of a bring-up, each with what follows from its outcome. -/
inductive BringUp (ι : Type) where
  | instantiate (next : Except Fault ι → BringUp ι)
  | setGlobal (inst : ι) (name : String) (v : UInt32) (next : Except Fault Unit → BringUp ι)
  /-- Look up the parameter types of an exported function. -/
  | params (inst : ι) (name : String) (next : Option (List Wasm.ValType) → BringUp ι)
  | call (inst : ι) (name : String) (arg : UInt64)
      (next : Except Fault (List UInt64) → BringUp ι)
  | close (inst : ι) (next : Except Fault Unit → BringUp ι)
  | note (n : Note) (next : BringUp ι)
  | done (result : Except Fault ι)

/-- Keep a fault that has a report in its chain, and attribute any other to a phase. -/
def attribution (phase : Phase) (name : String) (f : Fault) : Fault :=
  if f.hasReport then f
  else if phase = .instantiate then .instantiation (some f)
  else .causedBy { phase := phase, kind := .invalidData, name := name } f

/-- A function that takes a single pointer. -/
def checkPointerFunc (phase : Phase) (name : String) (params : Option (List Wasm.ValType)) :
    Option Fault :=
  match params with
  | none => some (.missingExport phase name)
  | some [.i32] => none
  | some ts =>
    some (.typeMismatch phase name "func(i32)"
      ("func(" ++ String.intercalate ", " (ts.map Wasm.ValType.name) ++ ")"))

namespace BringUp

variable {ι : Type}

/-- Close the instance and fail. A fault of the close itself is only noted. -/
def abort (inst : ι) (f : Fault) : BringUp ι :=
  .close inst fun
    | .ok _ => .done (.error f)
    | .error e => .note (.closeFailed e) (.done (.error f))

def enterThread (exports : Config.Exports) (inst : ι) (closurePtr : UInt32) : BringUp ι :=
  .params inst exports.entrypoint fun params =>
    match checkPointerFunc .entry exports.entrypoint params with
    | some f => abort inst f
    | none =>
      .note (.advanced .running) <| .call inst exports.entrypoint closurePtr.toUInt64 fun
        | .error e => abort inst (.trapped .entry exports.entrypoint (some e))
        | .ok _ => .done (.ok inst)

def initTls (exports : Config.Exports) (inst : ι) (tlsPtr closurePtr : UInt32) : BringUp ι :=
  .params inst exports.initTls fun params =>
    match checkPointerFunc .tls exports.initTls params with
    | some f => abort inst f
    | none =>
      .call inst exports.initTls tlsPtr.toUInt64 fun
        | .error e => abort inst (.trapped .tls exports.initTls (some e))
        | .ok _ => .note (.advanced .tlsInitialized) (enterThread exports inst closurePtr)

def setStack (exports : Config.Exports) (inst : ι) (stackPtr tlsPtr closurePtr : UInt32) :
    BringUp ι :=
  .setGlobal inst exports.stackPointer stackPtr fun
    | .error e => abort inst (attribution .stack exports.stackPointer e)
    | .ok _ => .note (.advanced .stackSet) (initTls exports inst tlsPtr closurePtr)

/-- The bring-up of a thread with the given pointers. -/
def steps (exports : Config.Exports) (stackPtr tlsPtr closurePtr : UInt32) : BringUp ι :=
  .instantiate fun
    | .error e => .done (.error (attribution .instantiate "" e))
    | .ok inst =>
      .note (.advanced .instantiated) (setStack exports inst stackPtr tlsPtr closurePtr)

end BringUp

/-- How to make an instance of type `ι` in a world of type `σ`, and to drive it. -/
structure Driver (σ ι μ : Type) where
  instantiate : Message μ → σ → Except Fault ι × σ
  setGlobal : ι → String → UInt32 → σ → Except Fault Unit × σ
  params : ι → String → σ → Option (List Wasm.ValType)
  call : ι → String → List UInt64 → σ → Except Fault (List UInt64) × σ
  close : ι → σ → Except Fault Unit × σ

/-- What a worker needs: something to drive, and someone who is told what happens. -/
structure Host (σ ι μ : Type) extends Driver σ ι μ where
  observe : Note → σ → σ

/-- How far a worker has come. -/
structure Progress where
  state : State := .uninitialized
  /-- A bootstrap message was received. -/
  handled : Bool := false
  failed : Bool := false
deriving DecidableEq, Repr

variable {σ ι μ : Type}

/-- The state after a note. -/
def Note.apply (n : Note) (state : State) : State :=
  match n with
  | .advanced s => s
  | _ => state

/-- Carry out a bring-up from the given state on. -/
def carryOut (host : Host σ ι μ) (msg : Message μ) :
    BringUp ι → State → σ → Except Fault ι × State × σ
  | .instantiate next, state, s =>
    let (r, s') := host.instantiate msg s
    carryOut host msg (next r) state s'
  | .setGlobal inst name v next, state, s =>
    let (r, s') := host.setGlobal inst name v s
    carryOut host msg (next r) state s'
  | .params inst name next, state, s => carryOut host msg (next (host.params inst name s)) state s
  | .call inst name arg next, state, s =>
    let (r, s') := host.call inst name [arg] s
    carryOut host msg (next r) state s'
  | .close inst next, state, s =>
    let (r, s') := host.close inst s
    carryOut host msg (next r) state s'
  | .note n next, state, s => carryOut host msg next (n.apply state) (host.observe n s)
  | .done r, state, s => (r, state, s)

/-- The fault of a second bootstrap message. -/
def alreadyBootstrapped : Fault :=
  .protocolViolation "worker already received its bootstrap message"

/-- Bring up the thread, on the first message only, and return the instance that runs it. -/
def handle (host : Host σ ι μ) (exports : Config.Exports) (w : Progress) (msg : Message μ) (s : σ) :
    Except Fault ι × Progress × σ :=
  if w.handled then (.error alreadyBootstrapped, w, host.observe (.ignored w.state) s)
  else
    let steps := BringUp.steps exports msg.stackPtr msg.tlsPtr msg.closurePtr
    let (r, state, s') := carryOut host msg steps w.state (host.observe .started s)
    match r with
    | .error f =>
      (.error f, { state := state, handled := true, failed := true },
        host.observe (.failed state f) s')
    | .ok inst =>
      (.ok inst, { state := state, handled := true, failed := w.failed },
        host.observe .returned s')

/-- What waits for a worker. -/
inductive Inbox (μ : Type) where
  | message (msg : Message μ)
  | closed
  /-- Nothing comes before the wait is cancelled. -/
  | cancelled

/-- Wait for the first message and handle it. -/
def receive (host : Host σ ι μ) (exports : Config.Exports) (w : Progress) (inbox : Inbox μ)
    (s : σ) :
    Except Fault ι × Progress × σ :=
  match inbox with
  | .message msg => handle host exports w msg s
  | .closed => (.error (.protocolViolation "inbox closed before bootstrap message"), w, s)
  | .cancelled => (.error (.external .cancelled), w, s)

end Worker

end GuestThreads
