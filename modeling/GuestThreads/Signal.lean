import GuestThreads.Text.Numeral

/-!
# Signals

A signal is a 64-bit value that guest code posts as two halves. The relay of a thread counts every
signal and passes it on unchanged, in order, to its outbox if it has one.
-/

namespace GuestThreads

structure Signal where
  hi : UInt32
  lo : UInt32
deriving DecidableEq, Repr

namespace Signal

def value (s : Signal) : UInt64 := s.hi.toUInt64 <<< 32 ||| s.lo.toUInt64

def ofValue (v : UInt64) : Signal where
  hi := (v >>> 32).toUInt32
  lo := v.toUInt32

def text (s : Signal) : String :=
  "signal(hi=" ++ Text.hex s.hi.toNat ++ ", lo=" ++ Text.hex s.lo.toNat ++ ")"

/-- The two members of a signal's JSON object. -/
def jsonMembers (s : Signal) : String :=
  "\"signal_hi\":" ++ Text.decimal s.hi.toNat ++ ",\"signal_lo\":" ++ Text.decimal s.lo.toNat

def json (s : Signal) : String := "\x7b" ++ s.jsonMembers ++ "\x7d"

end Signal

structure Relay where
  count : UInt64 := 0
  hasOutbox : Bool := true
deriving DecidableEq, Repr

/-- Relay one signal: what reaches the outbox is listed. -/
def Relay.post (r : Relay) (s : Signal) : Relay × List Signal :=
  ({ r with count := r.count + 1 }, if r.hasOutbox then [s] else [])

end GuestThreads
