import GuestThreads.Text.Numeral

/-!
# Worker states

How far the bring-up of a thread has come. A worker only ever moves forward.
-/

namespace GuestThreads

inductive Worker.State where
  | uninitialized
  | instantiated
  | stackSet
  | tlsInitialized
  /-- Entered right before the entrypoint is called; there is no further state. -/
  | running
deriving DecidableEq, Repr

namespace Worker.State

def code : State → Nat
  | .uninitialized => 0
  | .instantiated => 1
  | .stackSet => 2
  | .tlsInitialized => 3
  | .running => 4

def name : State → String
  | .uninitialized => "uninitialized"
  | .instantiated => "instantiated"
  | .stackSet => "stack_set"
  | .tlsInitialized => "tls_initialized"
  | .running => "running"

def all : List State := [.uninitialized, .instantiated, .stackSet, .tlsInitialized, .running]

/-- The name that belongs to a state's number, or the number itself. -/
def describe (n : Int) : String :=
  match all.find? fun s => (s.code : Int) = n with
  | some s => s.name
  | none => "state(" ++ Text.signedDecimal n ++ ")"

end Worker.State

end GuestThreads
