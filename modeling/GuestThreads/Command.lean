import GuestThreads.Closures
import GuestThreads.Command.Options
import GuestThreads.Config.Document
import GuestThreads.Wasm.Interpreter
import GuestThreads.World.Runtime

/-!
# The command

Load a module, spawn threads from it, and print their signals as they come, then how each thread
ended. `execute` says what the command prints and how it exits, given the files it can read.
-/

namespace GuestThreads.Command

variable [Wasm.Machine]

/-- What a command printed, in lines, and its exit code. -/
structure Outcome where
  exit : Nat := 0
  stdout : List String := []
  stderr : List String := []
deriving DecidableEq, Repr

def usage : List String := [
  "Usage: run -wasm <file.wasm> [-threads n] [-closure ptr,...] [-config file.yaml] [-json]",
  "       run -wasm <file.wasm> -i  (interactive mode)"]

/-- An engine that cannot be made ends the program at once, and so does a fault that is missing. -/
def isFatal : Fault → Bool
  | .external (.pageLimit _) => true
  | .external .noFault => true
  | _ => false

/-- A fault with what was being done. -/
def during (text : String) (f : Fault) : Fault := if isFatal f then f else .context text f

/-- End with a fault. -/
def Outcome.fail (o : Outcome) (f : Fault) : Outcome :=
  if isFatal f then { o with exit := 2, stderr := o.stderr ++ ["panic: " ++ f.message] }
  else { o with exit := 1, stderr := o.stderr ++ ["Error: " ++ f.message] }

def signalLine (json : Bool) (s : ThreadSignal) : String :=
  if json then s.json
  else
    "thread " ++ Text.decimal s.thread ++ ": signal hi=" ++ Text.hex s.signal.hi.toNat ++ " lo=" ++
      Text.hex s.signal.lo.toNat ++ " (" ++ Text.decimal s.signal.value.toNat ++ ")"

/-- How a thread ended. -/
def statusLine (w : World) (t : Thread) : Except Fault String := do
  let status := w.threadStatus t
  let ending ← match status.failed, t.error with
    | true, some f => pure ("failed: " ++ f.message)
    | true, none => throw (.external .noFault)
    | false, _ => pure "ok"
  return "thread " ++ Text.decimal t.id ++ ": " ++ status.state.name ++ ", " ++
    Text.decimal status.signals.toNat ++ " signal(s), " ++ ending

/-- An action whose faults tell what was being done. -/
def step {α : Type} (text : String) (act : Try α) : Try α :=
  tryCatch act fun f => throw (during text f)

/-- Spawn `left` threads, the first of them with number `i`. -/
def spawnAll (module : Nat) (pointers : List UInt32) : (left i : Nat) → Try Unit
  | 0, _ => return ()
  | left + 1, i => do
    let _ ← step s!"spawn thread {i}" <|
      World.spawn module (Closures.pointerFor pointers i) [] false
    spawnAll module pointers left (i + 1)

/-- A runtime with the module in the given bytes. -/
def loadModule (config : Config) (bytes : Bytes) : Try (Nat × Nat) := do
  let runtime ← step "create runtime" (World.newRuntime (some config))
  let module ← step "load module" (World.load runtime bytes)
  return (runtime, module)

/-- Run the threads of a module to their end. Yields what is printed on the way, and how the first
thread that failed did so. -/
def runThreads (o : Options) (pointers : List UInt32) (module : Nat) :
    Try (List String × Option Fault) := do
  spawnAll module pointers o.threads.toNat 0
  let ended ← World.attempt (World.wait module)
  step "close module" (World.closeModule module)
  let (signals, _) ← World.takeSignals module
  let threads := (← World.loadedModule module).threads
  let w ← get
  let endings ← if o.json then pure [] else World.liftExcept (threads.mapM (statusLine w))
  return (signals.map (signalLine o.json) ++ endings,
    match ended with | .error f => some f | .ok _ => none)

/-- Run the module in a file. -/
def run (read : FileReader) (o : Options) (config : Config) (pointers : List UInt32) :
    Try (List String × Option Fault) := do
  let bytes ← match read o.wasm with
    | .ok bytes => pure bytes
    | .error e => throw (during "read file" (.external e))
  let (_, module) ← loadModule config bytes
  runThreads o pointers module

/-- The settings to run with: those of a file or the defaults, and the pointers of the threads. -/
def settings (read : FileReader) (o : Options) : Except Fault (Config × List UInt32) := do
  let config ← if o.config = "" then pure {} else Config.load read o.config
  let config := if o.logLevel = "" then config
    else { config with log := { config.log with level := o.logLevel } }
  match Closures.parse o.closure with
  | .error e => throw (.plain e.message)
  | .ok pointers => return (config, pointers)

/-- Whether log records and spans can be written as the settings ask. -/
def checkOutput (config : Config) : Except Fault Unit := do
  let _ ← Log.enabled config.log.level false
  let _ ← Trace.recording config.tracer

/-- What is printed when the monitor is asked for and there is no terminal to show it on. -/
def noTerminal : String := "stdout is not a terminal, falling back to plain output"

/-- Carry out the command with the given options. -/
def perform (read : FileReader) (o : Options) : Outcome :=
  if o.wasm = "" then { exit := 1, stderr := usage }
  else
    match settings read o with
    | .error f => ({} : Outcome).fail f
    | .ok (config, pointers) =>
      let start : Outcome := { stderr := if o.interactive then [noTerminal] else [] }
      match checkOutput config with
      | .error f => start.fail f
      | .ok _ =>
        match ((run read o config pointers).run {}).1 with
        | .error f => start.fail f
        | .ok (lines, none) => { start with stdout := lines }
        | .ok (lines, some f) => { start with stdout := lines }.fail f

def execute (read : FileReader) (arguments : List String) : Outcome :=
  match Options.parse arguments with
  | .error e => { exit := e.exitCode, stderr := e.lines }
  | .ok o => perform read o

end GuestThreads.Command
