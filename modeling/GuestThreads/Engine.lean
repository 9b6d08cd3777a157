import GuestThreads.Config
import GuestThreads.Signal
import GuestThreads.Wasm.Linking

/-!
# Engines

An engine compiles modules and keeps what it compiled. It hosts at most one shared memory at a time,
together with the named modules that guests import it from. Guests themselves are instantiated
without a name, so that any number of them can share the memory.

Everything that is created is known by its number.
-/

namespace GuestThreads

/-- A module accepted by an engine, with its place in the engine's cache. -/
structure Compiled where
  place : Nat
  module : Wasm.Module

structure Engine where
  config : Config
  /-- The shared memory that is open now. -/
  memory : Option Nat := none
  /-- The binaries compiled so far and their modules. -/
  cache : List (Bytes × Wasm.Module) := []
  /-- What guests can import from. -/
  modules : List (String × Wasm.Provider) := []
  /-- The instances made in this engine, and the modules of the host. -/
  instances : List Wasm.Owner := []
  closed : Bool := false

namespace Engine

/-- How many pages any memory of this engine may have. -/
def pageLimit (e : Engine) : Nat :=
  if e.config.engine.memoryLimitPages = 0 then Wasm.maxPages
  else e.config.engine.memoryLimitPages.toNat

/-- The place of a binary in the cache. -/
def cached? (e : Engine) (bytes : Bytes) : Option Compiled := do
  let place ← e.cache.findIdx? (·.1 = bytes)
  let (_, m) ← e.cache[place]?
  return { place := place, module := m }

/-- The module that a binary denotes, if this engine accepts it. A closed engine accepts none. -/
def accept? [Wasm.Machine] (e : Engine) (bytes : Bytes) : Option Wasm.Module :=
  if e.closed then none else Wasm.Machine.compile? e.pageLimit bytes

end Engine

/-- A shared memory and the modules that export it. -/
structure SharedMemory where
  engine : Nat
  /-- The memory's number in the store. -/
  linear : Nat
  /-- The instance that defines it. -/
  env : Nat
  /-- The module names taken for it. -/
  names : List String
  minPages : UInt32
  maxPages : UInt32
  isOpen : Bool := true

/-- Where the signals of an instance go. -/
inductive Sink where
  /-- They are kept to be read. -/
  | inbox (k : Nat)
  /-- They pass through a worker's relay. -/
  | relay (k : Nat)
deriving DecidableEq

/-- An instance of a guest. -/
structure LiveInstance where
  /-- The instance's number in the store. -/
  inst : Nat
  engine : Nat
  memory : Nat
  sink : Option Sink
  isOpen : Bool := true

/-- Whether a module imports the configured memory in a form that the shared memory satisfies: the
first memory import decides. `pages` and `maxPages` are those of the shared memory. -/
def checkMemoryImport (wanted : Config.ImportName) (pages maxPages : UInt32) (bytes : Bytes) :
    Except Fault Unit :=
  match Wasm.Import.scan bytes with
  | .error e => .error (.unreadableImports e)
  | .ok imports =>
    let missing : Fault :=
      .missingImports [{ module := wanted.module, name := wanted.name, kind := "memory" }]
    let name := wanted.module ++ "." ++ wanted.name
    let mismatch (detail : String) : Fault :=
      .report { phase := .instantiate, kind := .typeMismatch, name := name, detail := detail }
    match imports.findSome? fun i => i.memory?.map fun l => (i, l) with
    | none => .error missing
    | some (i, l) =>
      if i.module ≠ wanted.module ∨ i.name ≠ wanted.name then .error missing
      else if l.memory64 then
        .error (.typeMismatch .instantiate name "32-bit memory" "64-bit memory")
      else if !l.shared then
        .error (.typeMismatch .instantiate name "shared memory" "unshared memory")
      else if pages.toUInt64 < l.min then
        .error (mismatch
          s!"module needs at least {l.min.toNat} pages, shared memory has {pages.toNat}")
      else
        match l.max with
        | some max =>
          if max < maxPages.toUInt64 then
            .error <| mismatch
            s!"module allows at most {max.toNat} pages, shared memory may grow to {maxPages.toNat}"
          else .ok ()
        | none => .ok ()

end GuestThreads
