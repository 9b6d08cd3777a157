import GuestThreads.Fault

/-!
# Configuration

The settings of an engine, of the shared memory, of the names a guest uses, and of the regions its
threads get. `Config.validate` checks the settings against each other and reports the first fault
it meets.
-/

namespace GuestThreads

namespace Config

structure Engine where
  /-- The most pages a memory may have, or zero for no limit of its own. -/
  memoryLimitPages : UInt32 := 0
  /-- Whether cancellation stops guest code. -/
  closeOnContextDone : Bool := false
deriving DecidableEq, Repr

/-- The two names of an import. -/
structure ImportName where
  module : String
  name : String
deriving DecidableEq, Repr

structure Memory where
  importName : ImportName := ⟨"env", "memory"⟩
  minPages : UInt32 := 64
  maxPages : UInt32 := 16384
deriving DecidableEq, Repr

/-- The exports used to bring up a thread. -/
structure Exports where
  stackPointer : String := "__stack_pointer"
  initTls : String := "__wasm_init_tls"
  entrypoint : String := "wasm_thread_entrypoint"
deriving DecidableEq, Repr

structure Regions where
  base : UInt32 := 0x100000
  stackSize : UInt32 := 0x10000
  tlsSize : UInt32 := 0x400
deriving DecidableEq, Repr

structure Log where
  level : String := "info"
  development : Bool := false
deriving DecidableEq, Repr

structure Tracer where
  enabled : Bool := false
  exporter : String := ""
deriving DecidableEq, Repr

end Config

structure Config where
  engine : Config.Engine := {}
  memory : Config.Memory := {}
  signal : Config.ImportName := ⟨"env", "_post_signal"⟩
  exports : Config.Exports := {}
  regions : Config.Regions := {}
  log : Config.Log := {}
  tracer : Config.Tracer := {}
deriving DecidableEq, Repr

namespace Config

/-- Both names are given. -/
def ImportName.given (i : ImportName) : Bool := i.module ≠ "" && i.name ≠ ""

def Exports.given (e : Exports) : Bool :=
  e.stackPointer ≠ "" && e.initTls ≠ "" && e.entrypoint ≠ ""

def Tracer.supported (t : Tracer) : Bool :=
  t.exporter = "" || t.exporter = "noop" || t.exporter = "stdout"

/-- What is wrong with the settings, if anything. -/
def invalid? (c : Config) : Option String :=
  let min := c.memory.minPages
  let max := c.memory.maxPages
  let limit := c.engine.memoryLimitPages
  if !c.memory.importName.given then some "memory import module and name are required"
  else if !c.signal.given then some "signal import module and name are required"
  else if min = 0 then some "memory min_pages must be at least 1"
  else if max < min then some s!"memory max_pages {max.toNat} below min_pages {min.toNat}"
  else if 65536 < max then some "memory max_pages exceeds 65536"
  else if limit ≠ 0 ∧ limit < max then
    some s!"memory max_pages {max.toNat} exceeds engine limit {limit.toNat}"
  else if !c.exports.given then some "all bring-up export names are required"
  else if c.regions.stackSize = 0 then some "layout stack_size must be non-zero"
  else if !c.tracer.supported then
    some ("unsupported tracer exporter " ++ Text.quoted c.tracer.exporter)
  else none

def validate (c : Config) : Except Fault Unit :=
  match c.invalid? with
  | none => .ok ()
  | some detail => .error (.invalidInput .config detail)

end Config

end GuestThreads
