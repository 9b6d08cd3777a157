import GuestThreads.Config
import GuestThreads.Layout
import GuestThreads.Mailbox
import GuestThreads.Signal

/-!
# Loaded modules and their threads

A runtime loads modules, each with an engine and a shared memory of its own. Threads spawned from a
module get a region each, and their signals are merged into one stream.
-/

namespace GuestThreads

/-- A signal with the thread that posted it. -/
structure ThreadSignal where
  thread : Nat
  signal : Signal
deriving DecidableEq, Repr

def ThreadSignal.json (s : ThreadSignal) : String :=
  "\x7b\"thread\":" ++ Text.decimal s.thread ++ "," ++ s.signal.jsonMembers ++ "\x7d"

structure Thread where
  id : Nat
  region : Region
  /-- The worker that brings the thread up. -/
  worker : Nat
  done : Bool := false
  bridge : Option Nat := none
  error : Option Fault := none

/-- Record how a thread ended. Only the first ending counts. -/
def Thread.finish (t : Thread) (r : Except Fault Nat) : Thread :=
  if t.done then t
  else
    match r with
    | .ok bridge => { t with done := true, bridge := some bridge }
    | .error f => { t with done := true, error := some f }

structure LoadedModule where
  runtime : Nat
  engine : Nat
  memory : Nat
  bytes : Bytes
  layout : Layout
  stream : Mailbox ThreadSignal := .new
  threads : List Thread := []
  /-- The first fault of a thread. -/
  firstError : Option Fault := none
  closed : Bool := false

structure Runtime where
  config : Config
  /-- The modules to close with the runtime. -/
  modules : List Nat := []
  closed : Bool := false

end GuestThreads
