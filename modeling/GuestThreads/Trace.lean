import GuestThreads.Config

/-!
# Spans

A span covers one piece of work. It carries attributes, events in order, and how the work ended.
-/

namespace GuestThreads.Trace

inductive Value where
  | text (s : String)
  | nat (n : Nat)
  | int (n : Int)
deriving DecidableEq, Repr

structure Event where
  name : String
  attributes : List (String × Value) := []
deriving DecidableEq, Repr

inductive Status where
  | unset
  | ok
  | error (description : String)
deriving DecidableEq, Repr

structure Span where
  name : String
  attributes : List (String × Value) := []
  events : List Event := []
  status : Status := .unset
deriving DecidableEq, Repr

def Span.event (s : Span) (name : String) (attributes : List (String × Value) := []) : Span :=
  { s with events := s.events ++ [{ name := name, attributes := attributes }] }

/-- End the work with a fault, which is an event as well. -/
def Span.fail (s : Span) (description : String) : Span :=
  { s.event "exception" [("exception.message", .text description)] with
    status := .error description }

/-- Whether spans are recorded under these settings. The exporter's name only matters when tracing
is enabled. -/
def recording (t : Config.Tracer) : Except Fault Bool :=
  if !t.enabled then .ok false
  else if t.exporter = "stdout" then .ok true
  else if t.exporter = "noop" ∨ t.exporter = "" then .ok false
  else .error (.external (.unknownExporter t.exporter))

end GuestThreads.Trace
