import GuestThreads.Wasm.Import
import GuestThreads.Wasm.Instr

/-!
# Assembling modules

An assembly lists the imports, globals, functions and exports of a small module. It is put together
from declarations, and `encode` writes the binary. Every function has a type of its own, and
imported functions come first in the index space.
-/

namespace GuestThreads.Wasm

namespace Assembly

structure FuncImport where
  module : String
  name : String
  type : FuncType

structure MemoryImport where
  module : String
  name : String
  min : UInt32
  max : UInt32
  shared : Bool

structure Global where
  type : ValType
  mutable : Bool
  init : Int64

structure Func where
  type : FuncType
  code : List Instr

inductive ExportKind where
  | func
  | global
deriving DecidableEq

structure Export where
  kind : ExportKind
  name : String
  index : UInt32

end Assembly

structure Assembly where
  imports : List Assembly.FuncImport := []
  memory : Option Assembly.MemoryImport := none
  globals : List Assembly.Global := []
  funcs : List Assembly.Func := []
  exports : List Assembly.Export := []

namespace Assembly

/-- What a module is put together from, one after the other. -/
inductive Declaration where
  | importFunc (i : FuncImport)
  | importMemory (m : MemoryImport)
  | global (g : Global)
  | func (f : Func)
  | exportFunc (name : String) (index : UInt32)
  | exportGlobal (name : String) (index : UInt32)

/-- Take in a declaration. Functions and globals are known by an index from then on. An import added
behind a local function would shift the indices already in use. -/
def declare (a : Assembly) : Declaration → Except String (Option UInt32 × Assembly)
  | .importFunc i =>
    if a.funcs.isEmpty then
      .ok (some a.imports.length.toUInt32, { a with imports := a.imports ++ [i] })
    else .error "wasmtest: imports must precede functions"
  | .importMemory m => .ok (none, { a with memory := some m })
  | .global g => .ok (some a.globals.length.toUInt32, { a with globals := a.globals ++ [g] })
  | .func f =>
    .ok (some (a.imports.length + a.funcs.length).toUInt32, { a with funcs := a.funcs ++ [f] })
  | .exportFunc name index =>
    .ok (none, { a with exports := a.exports ++ [{ kind := .func, name := name, index := index }] })
  | .exportGlobal name index =>
    .ok (none, { a with
      exports := a.exports ++ [{ kind := .global, name := name, index := index }] })

/-- Take in declarations in order, and list the indices they get. -/
def declareAll (a : Assembly) :
    List Declaration → Except String (List (Option UInt32) × Assembly)
  | [] => .ok ([], a)
  | d :: ds => do
    let (index, a) ← a.declare d
    let (indices, a) ← a.declareAll ds
    return (index :: indices, a)

/-- The types of all functions in order of their indices. -/
def types (a : Assembly) : List FuncType := a.imports.map (·.type) ++ a.funcs.map (·.type)

/-- The import section's entries: the functions, then the memory. -/
def entries (a : Assembly) : List Import :=
  (a.imports.mapIdx fun i f => { module := f.module, name := f.name, desc := .func i.toUInt32 }) ++
    a.memory.toList.map fun m =>
      { module := m.module, name := m.name, desc := .memory (.ofPages m.min m.max true m.shared) }

/-- The type, the mutability, and the initial value: a 64-bit constant for `i64` and a 32-bit one
for every other type. -/
def Global.encode (g : Global) : Bytes :=
  [g.type.code, if g.mutable then 1 else 0] ++
    (match g.type with
    | .i64 => 0x42 :: Leb128.ofInt64 g.init
    | _ => 0x41 :: Leb128.ofInt32 g.init.toInt32) ++ [0x0b]

def ExportKind.code : ExportKind → UInt8
  | .func => 0
  | .global => 3

def Export.encode (e : Export) : Bytes :=
  encodeName e.name ++ e.kind.code :: Leb128.ofUInt32 e.index

/-- A body without locals, preceded by its size. -/
def Func.encode (f : Func) : Bytes :=
  let body := 0x00 :: (f.code.flatMap Instr.encode ++ [0x0b])
  Leb128.unsigned body.length ++ body

/-- A section that holds a list, left out when the list is empty. -/
def listSection {α : Type} (id : UInt8) (item : α → Bytes) (items : List α) : Bytes :=
  if items.isEmpty then [] else encodeSection id (vector item items)

def encode (a : Assembly) : Bytes :=
  header ++
    listSection 1 FuncType.encode a.types ++
    listSection 2 Import.encode a.entries ++
    listSection 3 Leb128.unsigned
      ((List.range a.funcs.length).map (a.imports.length + ·)) ++
    listSection 6 Global.encode a.globals ++
    listSection 7 Export.encode a.exports ++
    listSection 10 Func.encode a.funcs

end Assembly

end GuestThreads.Wasm
