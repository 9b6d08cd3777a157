import GuestThreads.Command

/-!
# The monitor

A view of a module's threads and of the signals they post, driven by messages. `update` says how a
message changes the monitor and what it asks for; `handle` carries the request out. Signals arrive
only after a module is loaded, and the input field is open only then. Keys that mean nothing to the
monitor itself are left to the field, which may be of any sort.
-/

namespace GuestThreads

namespace Monitor

inductive Key where
  | enter
  | escape
  | interrupt
  | backspace
  | char (c : Char)
  /-- Any other key, by its name. -/
  | other (name : String)
deriving DecidableEq, Repr

/-- What a monitor asks of its input field. -/
class InputField (F : Type) where
  /-- A field that nothing was typed into. -/
  new : F
  /-- The field emptied, to take up a text. -/
  opened : F → F
  /-- The field when its text is done with. -/
  closed : F → F
  press : Key → F → F
  text : F → List Char

/-- A line of text that is written and erased at its end. -/
structure Line where
  chars : List Char := []
deriving DecidableEq, Repr

/-- What a character becomes in a line. -/
def Line.char? (c : Char) : Option Char :=
  if c = '\t' || c = '\n' || c = '\r' then some ' '
  else if c.toNat < 0x20 || (0x7f ≤ c.toNat && c.toNat < 0xa0) || c.toNat = 0xfffd then none
  else some c

def Line.press (k : Key) (l : Line) : Line :=
  match k with
  | .backspace => { chars := l.chars.dropLast }
  | .char c => { chars := l.chars ++ (char? c).toList }
  | _ => l

instance : InputField Line where
  new := {}
  opened _ := {}
  closed l := l
  press := Line.press
  text := Line.chars

/-- A runtime and the module loaded into it. -/
structure Loaded where
  runtime : Nat
  module : Nat
deriving DecidableEq, Repr

inductive Message where
  | key (k : Key)
  | loaded (r : Except Fault Loaded)
  | signal (s : ThreadSignal)
  | streamEnded
  | tick

/-- What a message asks for. -/
inductive Request where
  | nothing
  /-- A thread of the loaded module, if there is one. -/
  | spawn (module : Option Nat) (pointer : UInt32)
  | quit (runtime : Option Nat)
deriving DecidableEq, Repr

/-- How many signals the log keeps. -/
def logLength : Nat := 15

/-- A list without its first entries, if it is too long. -/
def keepLast {α : Type} (n : Nat) (xs : List α) : List α := xs.drop (xs.length - n)

def signalLine (s : ThreadSignal) : String :=
  "thread " ++ Text.decimal s.thread ++ "  hi=" ++ Text.hex8 s.signal.hi.toNat ++ " lo=" ++
    Text.hex8 s.signal.lo.toNat ++ "  " ++ Text.decimal s.signal.value.toNat

/-- A fault of the input field. -/
def invalidPointer (text : String) (e : Text.LiteralError) : Fault :=
  .plain ("invalid closure pointer: " ++ e.report text)

end Monitor

open Monitor

/-- A monitor with an input field of a given sort. -/
structure MonitorOn (F : Type) [InputField F] where
  file : String
  config : Config
  threads : Int
  pointers : List UInt32
  loaded : Option Loaded := none
  error : Option Fault := none
  /-- The last signal of each thread that posted one. -/
  last : List (Nat × ThreadSignal) := []
  /-- The most recent signals, a line each. -/
  log : List String := []
  /-- How many signals were received. -/
  total : Nat := 0
  /-- Whether the input field is open. -/
  spawning : Bool := false
  input : F := InputField.new

abbrev Monitor := MonitorOn Line

namespace MonitorOn

variable [Wasm.Machine] {F : Type} [InputField F]

def receive (s : ThreadSignal) (m : MonitorOn F) : MonitorOn F :=
  { m with
    total := m.total + 1
    last := (s.thread, s) :: m.last.filter (·.1 ≠ s.thread)
    log := keepLast logLength (m.log ++ [signalLine s]) }

/-- The pointer in the input field is entered. -/
def submit (m : MonitorOn F) : MonitorOn F × Request :=
  let closed := { m with spawning := false, input := InputField.closed m.input }
  let text := Text.trim (InputField.text closed.input)
  match Text.parseUnsigned Text.maxWord32 text with
  | .error e => ({ closed with error := some (invalidPointer (String.ofList text) e) }, .nothing)
  | .ok v => ({ closed with error := none }, .spawn (m.loaded.map (·.module)) v.toUInt32)

/-- A key while the input field is open. -/
def typed (k : Key) (m : MonitorOn F) : MonitorOn F × Request :=
  match k with
  | .escape => ({ m with spawning := false, input := InputField.closed m.input }, .nothing)
  | .enter => m.submit
  | _ => ({ m with input := InputField.press k m.input }, .nothing)

/-- A key while the input field is closed. -/
def pressed (k : Key) (m : MonitorOn F) : MonitorOn F × Request :=
  if k = .interrupt || k = .char 'q' then (m, .quit (m.loaded.map (·.runtime)))
  else if k = .char 's' then
    (if m.loaded.isSome then { m with spawning := true, input := InputField.opened m.input } else m,
      .nothing)
  else if k = .char 'c' then ({ m with log := [] }, .nothing)
  else (m, .nothing)

def update (msg : Message) (m : MonitorOn F) : MonitorOn F × Request :=
  match msg with
  | .key k => if m.spawning then m.typed k else m.pressed k
  | .loaded (.error f) => ({ m with error := some f }, .nothing)
  | .loaded (.ok l) => ({ m with loaded := some l }, .nothing)
  | .signal s => (m.receive s, .nothing)
  | .streamEnded => (m, .nothing)
  | .tick => (m, .nothing)

/-- Record how a spawn went. -/
def spawned {α : Type} (r : Except Fault α) (m : MonitorOn F) : MonitorOn F :=
  match r with
  | .ok _ => m
  | .error f => { m with error := some f }

/-- Handle a message with all it asks for. The flag tells whether the monitor goes on: it ends if it
is to quit, or to spawn a thread of no module. -/
def handle (msg : Message) (m : MonitorOn F) : Act (MonitorOn F × Bool) := do
  match m.update msg with
  | (m, .nothing) => return (m, true)
  | (m, .spawn none _) => return (m, false)
  | (m, .spawn (some module) pointer) =>
    let r ← (World.spawn module pointer [] false).run
    return (m.spawned r, true)
  | (m, .quit runtime) =>
    if let some k := runtime then
      let _ ← (World.closeRuntime k).run
    return (m, false)

/-- Spawn the threads of a module, without naming the one that fails. -/
def spawnFirst (module : Nat) (pointers : List UInt32) : (left i : Nat) → Try Unit
  | 0, _ => return ()
  | left + 1, i => do
    let _ ← World.spawn module (Closures.pointerFor pointers i) [] false
    spawnFirst module pointers left (i + 1)

/-- Load the file and spawn the first threads. A runtime that cannot be used is closed. -/
def load (read : FileReader) (m : MonitorOn F) : Try Loaded := do
  let bytes ← match read m.file with
    | .ok bytes => pure bytes
    | .error e => throw (.external e)
  let runtime ← World.newRuntime (some m.config)
  let rest : Try Loaded := do
    let module ← World.load runtime bytes
    spawnFirst module m.pointers m.threads.toNat 0
    return { runtime := runtime, module := module }
  tryCatch rest fun f => do
    World.closeRuntime runtime
    throw f

/-- Handle every signal that waits. -/
def catchUp (m : MonitorOn F) : Act (MonitorOn F) := do
  match m.loaded with
  | none => return m
  | some l =>
    match ← (World.takeSignals l.module).run with
    | .error _ => return m
    | .ok (signals, _) => return signals.foldl (fun m s => (m.update (.signal s)).1) m

end MonitorOn

end GuestThreads
