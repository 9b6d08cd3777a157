import GuestThreads.Leb128

/-!
# WebAssembly types

Value types, function types and limits, with their binary form.
-/

namespace GuestThreads.Wasm

inductive ValType where
  | i32
  | i64
  | f32
  | f64
  | v128
  | funcref
  | externref
deriving DecidableEq, Repr

namespace ValType

def name : ValType → String
  | .i32 => "i32"
  | .i64 => "i64"
  | .f32 => "f32"
  | .f64 => "f64"
  | .v128 => "v128"
  | .funcref => "funcref"
  | .externref => "externref"

/-- The byte that the assemblers write. Only numeric types have one of their own; any other type is
written as an `i32` is. -/
def code : ValType → UInt8
  | .i32 => 0x7f
  | .i64 => 0x7e
  | .f32 => 0x7d
  | .f64 => 0x7c
  | _ => 0x7f

/-- The type that a byte of a module denotes. -/
def ofCode? : UInt8 → Option ValType
  | 0x7f => some .i32
  | 0x7e => some .i64
  | 0x7d => some .f32
  | 0x7c => some .f64
  | 0x7b => some .v128
  | 0x70 => some .funcref
  | 0x6f => some .externref
  | _ => none

end ValType

structure FuncType where
  params : List ValType := []
  results : List ValType := []
deriving DecidableEq, Repr

/-- A list preceded by its length. -/
def vector {α : Type} (item : α → Bytes) (items : List α) : Bytes :=
  Leb128.unsigned items.length ++ items.flatMap item

def FuncType.encode (t : FuncType) : Bytes :=
  0x60 :: (vector (fun v => [v.code]) t.params ++ vector (fun v => [v.code]) t.results)

/-- Bytes preceded by their number. -/
def encodeBytes (bytes : Bytes) : Bytes := Leb128.unsigned bytes.length ++ bytes

/-- A text preceded by its length in bytes. -/
def encodeName (s : String) : Bytes := encodeBytes (Bytes.ofString s)

/-- A section: its id, the size of its body, the body. -/
def encodeSection (id : UInt8) (body : Bytes) : Bytes :=
  id :: (Leb128.unsigned body.length ++ body)

/-- The magic number and version 1. -/
def header : Bytes := [0x00, 0x61, 0x73, 0x6d, 0x01, 0x00, 0x00, 0x00]

/-- How many pages, or table slots, an import asks for. -/
structure Limits where
  min : UInt64
  max : Option UInt64 := none
  shared : Bool := false
  memory64 : Bool := false
deriving DecidableEq, Repr

/-- The flags byte that precedes the bounds. -/
def Limits.flags (l : Limits) : UInt8 :=
  (if l.max.isSome then 1 else 0) + (if l.shared then 2 else 0) + (if l.memory64 then 4 else 0)

def Limits.encode (l : Limits) : Bytes :=
  l.flags :: (Leb128.ofUInt64 l.min ++ (l.max.map Leb128.ofUInt64).getD [])

/-- The limits of a 32-bit memory. A shared memory always carries a maximum. -/
def Limits.ofPages (min max : UInt32) (hasMax shared : Bool) : Limits where
  min := min.toUInt64
  max := if hasMax || shared then some max.toUInt64 else none
  shared := shared

end GuestThreads.Wasm
