import GuestThreads.Fault

/-!
# Log records

Records carry a level, the part of the library that wrote them, a message, and named values. A
logger lets the records at or above its level through.
-/

namespace GuestThreads.Log

inductive Level where
  | debug
  | info
  | warn
  | error
  | dpanic
  | panic
  | fatal
deriving DecidableEq, Repr

namespace Level

/-- All levels, the least severe first. -/
def all : List Level := [.debug, .info, .warn, .error, .dpanic, .panic, .fatal]

def name : Level → String
  | .debug => "debug"
  | .info => "info"
  | .warn => "warn"
  | .error => "error"
  | .dpanic => "dpanic"
  | .panic => "panic"
  | .fatal => "fatal"

def severity : Level → Nat
  | .debug => 0
  | .info => 1
  | .warn => 2
  | .error => 3
  | .dpanic => 4
  | .panic => 5
  | .fatal => 6

/-- Lower case, as far as the names of levels need it: the dotted capital I is an i as well. -/
def lowerChar (c : Char) : Char := if c.toNat = 0x130 then 'i' else c.toLower

/-- The level that a text names, in any case. No text means `info`. -/
def parse (text : String) : Except Fault Level :=
  let lowered := text.map lowerChar
  match all.find? (·.name = lowered) with
  | some level => .ok level
  | none =>
    if lowered = "" then .ok .info
    else if lowered = "warning" then .ok .warn
    else .error (.context "log level" (.external (.unknownLogLevel text)))

end Level

/-- The levels that a logger lets through. A discarding logger never looks at its level. -/
def enabled (level : String) (discard : Bool) : Except Fault (List Level) :=
  if discard then .ok []
  else do
    let least ← Level.parse level
    return Level.all.filter (least.severity ≤ ·.severity)

/-- The part of the library that writes a record. -/
inductive Source where
  | engine
  | worker
  | runtime
deriving DecidableEq, Repr

def Source.name : Source → String
  | .engine => "engine"
  | .worker => "worker"
  | .runtime => "runtime"

inductive Value where
  | nat (n : Nat)
  | int (v : Int)
  | flag (b : Bool)
  | text (s : String)
  | fault (f : Fault)
deriving DecidableEq, Repr

structure Record where
  level : Level
  source : Source
  message : String
  fields : List (String × Value) := []
deriving DecidableEq, Repr

end GuestThreads.Log
