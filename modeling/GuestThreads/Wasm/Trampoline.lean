import GuestThreads.Wasm.Import

/-!
# Trampoline modules

A trampoline module defines a shared memory, imports functions from a host module, and exports each
again under another name through a local function that only calls the import. Guests that import
from it share the one memory.
-/

namespace GuestThreads.Wasm

namespace Trampoline

structure SharedMemory where
  name : String
  min : UInt32
  max : UInt32
deriving DecidableEq, Repr

/-- A function, by its name in the host module and the name it is exported under. -/
structure Func where
  importName : String
  exportName : String
  type : FuncType
deriving DecidableEq, Repr

end Trampoline

structure Trampoline where
  host : String
  memory : Option Trampoline.SharedMemory := none
  funcs : List Trampoline.Func := []
deriving DecidableEq, Repr

namespace Trampoline

def types (t : Trampoline) : Bytes := vector (fun f => f.type.encode) t.funcs

def imports (t : Trampoline) : List Import :=
  t.funcs.mapIdx fun i f =>
    { module := t.host, name := f.importName, desc := .func i.toUInt32 }

/-- The local functions have the types of the imports, in order. -/
def functions (t : Trampoline) : Bytes :=
  vector Leb128.unsigned (List.range t.funcs.length)

def memoryLimits (m : SharedMemory) : Limits := .ofPages m.min m.max true true

def encodeExport (name : String) (kind : UInt8) (index : Nat) : Bytes :=
  encodeName name ++ kind :: Leb128.unsigned index

/-- The memory, then the local functions, which follow the imported ones in the index space. -/
def exports (t : Trampoline) : List Bytes :=
  (t.memory.toList.map fun m => encodeExport m.name 2 0) ++
    t.funcs.mapIdx fun i f => encodeExport f.exportName 0 (t.funcs.length + i)

/-- Pass all parameters on to the import. -/
def body (i : Nat) (f : Func) : Bytes :=
  let gets := (List.range f.type.params.length).flatMap fun p => 0x20 :: Leb128.unsigned p
  0x00 :: (gets ++ 0x10 :: (Leb128.unsigned i ++ [0x0b]))

def bodies (t : Trampoline) : List Bytes :=
  t.funcs.mapIdx body

/-- A section, or nothing. -/
def optionalSection (wanted : Bool) (id : UInt8) (body : Bytes) : Bytes :=
  if wanted then encodeSection id body else []

/-- The binary module, if there is anything to export. -/
def encode (t : Trampoline) : Option Bytes :=
  if t.funcs.isEmpty && t.memory.isNone then none
  else
    let hasFuncs := !t.funcs.isEmpty
    some (header ++
      optionalSection hasFuncs 1 t.types ++
      optionalSection hasFuncs 2 (vector Import.encode t.imports) ++
      optionalSection hasFuncs 3 t.functions ++
      optionalSection t.memory.isSome 5
        (vector (fun m => (memoryLimits m).encode) t.memory.toList) ++
      encodeSection 7 (vector id t.exports) ++
      optionalSection hasFuncs 10
        (vector (fun b => Leb128.unsigned b.length ++ b) t.bodies))

end Trampoline

end GuestThreads.Wasm
