import GuestThreads.Wasm.Import
import GuestThreads.Wasm.Instr

/-!
# Modules

A module as the engine sees it once it is decoded.
-/

namespace GuestThreads.Wasm

structure GlobalType where
  type : ValType
  mutable : Bool
deriving DecidableEq

/-- The constant that a global starts with. -/
inductive Constant where
  | i32 (v : Int32)
  | i64 (v : Int64)
deriving DecidableEq

def Constant.type : Constant → ValType
  | .i32 _ => .i32
  | .i64 _ => .i64

/-- The constant as a 64-bit word; 32-bit values fill it up with zeros. -/
def Constant.word : Constant → UInt64
  | .i32 v => v.toUInt32.toUInt64
  | .i64 v => v.toUInt64

structure Global where
  type : GlobalType
  init : Constant
deriving DecidableEq

/-- A function that the module defines. -/
structure Func where
  typeIndex : Nat
  locals : List ValType := []
  code : List Instr
deriving DecidableEq

inductive ExportKind where
  | func
  | table
  | memory
  | global
deriving DecidableEq

def ExportKind.name : ExportKind → String
  | .func => "func"
  | .table => "table"
  | .memory => "memory"
  | .global => "global"

structure Export where
  name : String
  kind : ExportKind
  index : Nat
deriving DecidableEq

structure Module where
  types : List FuncType := []
  imports : List Import := []
  funcs : List Func := []
  tables : List Limits := []
  memories : List Limits := []
  globals : List Global := []
  exports : List Export := []
  start : Option Nat := none
  /-- Whatever else of the binary a machine needs. -/
  rest : Bytes := []

namespace Module

/-- The type indices of the imported functions, in order. -/
def importedFuncs (m : Module) : List Nat :=
  m.imports.filterMap fun i =>
    match i.desc with
    | .func index => some index.toNat
    | _ => none

/-- The limits of the imported memories. -/
def importedMemories (m : Module) : List Limits := m.imports.filterMap Import.memory?

/-- The types of the imported globals, as far as their bytes denote one. -/
def importedGlobals (m : Module) : List (Option GlobalType) :=
  m.imports.filterMap fun i =>
    match i.desc with
    | .global valtype mutability =>
      some ((ValType.ofCode? valtype).map fun t => { type := t, mutable := mutability = 1 })
    | _ => none

/-- The type of function `index`, imported functions first. -/
def funcType? (m : Module) (index : Nat) : Option FuncType :=
  ((m.importedFuncs ++ m.funcs.map (·.typeIndex))[index]?).bind (m.types[·]?)

/-- The type of global `index`, imported globals first. -/
def globalType? (m : Module) (index : Nat) : Option GlobalType :=
  ((m.importedGlobals ++ m.globals.map fun g => some g.type)[index]?).join

def export? (m : Module) (name : String) : Option Export := m.exports.find? (·.name = name)

/-- How many exports are functions. -/
def exportedFuncs (m : Module) : Nat := (m.exports.filter (·.kind = .func)).length

end Module

end GuestThreads.Wasm
