import GuestThreads.Cursor
import GuestThreads.Text.Numeral
import GuestThreads.Wasm.Types

/-!
# The import section

`Import.encode` writes an entry and `Import.scan` finds the entries of a module without decoding
the rest of it. The scan looks at the first import section only, never beyond its declared body,
and does not mind what surrounds it.
-/

namespace GuestThreads.Wasm

/-- What an import asks for. -/
inductive Import.Desc where
  | func (typeIndex : UInt32)
  | table (reftype : UInt8) (limits : Limits)
  | memory (limits : Limits)
  | global (valtype mutability : UInt8)
  | tag (kind : UInt8) (typeIndex : UInt32)
deriving DecidableEq, Repr

structure Import where
  module : String
  name : String
  desc : Import.Desc
deriving DecidableEq, Repr

namespace Import

/-- The byte that tells the kinds of import apart. -/
def Desc.kind : Desc → UInt8
  | .func _ => 0
  | .table _ _ => 1
  | .memory _ => 2
  | .global _ _ => 3
  | .tag _ _ => 4

def Desc.encode : Desc → Bytes
  | .func index => Leb128.ofUInt32 index
  | .table reftype limits => reftype :: limits.encode
  | .memory limits => limits.encode
  | .global valtype mutability => [valtype, mutability]
  | .tag kind index => kind :: Leb128.ofUInt32 index

def encode (i : Import) : Bytes :=
  encodeName i.module ++ encodeName i.name ++ i.desc.kind :: i.desc.encode

/-- The limits, if a memory is imported. -/
def memory? (i : Import) : Option Limits :=
  match i.desc with
  | .memory limits => some limits
  | _ => none

/-- Why a module's imports cannot be read. -/
inductive ScanError where
  | notWasm
  | unreadable (failure : Cursor.Failure)
  | sectionHeader (id : UInt8) (failure : Cursor.Failure)
  | sectionOverrun (id : UInt8) (size : UInt32) (remaining : Nat)
  | unknownKind (module name : String) (kind : UInt8)
  | limits (min max : UInt64)
deriving DecidableEq, Repr

/-- Where in a module a section's size cannot be read. -/
def sectionPlace (id : UInt8) : String := s!"section {id.toNat} header"

def ScanError.message : ScanError → String
  | .notWasm => "not a wasm binary"
  | .unreadable f => f.message
  | .sectionHeader id f => sectionPlace id ++ ": " ++ f.message
  | .sectionOverrun id size remaining =>
    s!"section {id.toNat} overruns module ({size.toNat} > {remaining})"
  | .unknownKind m n kind => s!"import {m}.{n}: unknown kind " ++ Text.hex kind.toNat
  | .limits min max => s!"limits min ({min.toNat}) exceeds max ({max.toNat})"

/-- A step of the scan: a read that may also meet an entry it refuses. -/
abbrev Scan := ExceptT ScanError (StateM Cursor)

/-- Read, and report a failure as `wrap` says. -/
def read {α : Type} (r : Cursor.Read α) (wrap : Cursor.Failure → ScanError := .unreadable) :
    Scan α := fun c =>
  match r c with
  | (.ok a, c') => (.ok a, c')
  | (.error f, c') => (.error (wrap f), c')

/-- A bound of limits, as wide as their flags say. -/
def scanBound (memory64 : Bool) : Scan UInt64 := do
  if memory64 then read Cursor.u64
  else return (← read Cursor.u32).toUInt64

def scanLimits : Scan Limits := do
  let flags ← read Cursor.byte
  let hasMax := flags &&& 1 != 0
  let shared := flags &&& 2 != 0
  let memory64 := flags &&& 4 != 0
  let min ← scanBound memory64
  if hasMax then
    let max ← scanBound memory64
    if max < min then throw (.limits min max)
    else return { min := min, max := some max, shared := shared, memory64 := memory64 }
  else return { min := min, shared := shared, memory64 := memory64 }

def scanDesc (module name : String) : Scan Desc := do
  let kind ← read Cursor.byte
  match kind with
  | 0 => return .func (← read Cursor.u32)
  | 1 =>
    let reftype ← read Cursor.byte
    return .table reftype (← scanLimits)
  | 2 => return .memory (← scanLimits)
  | 3 =>
    match ← read (Cursor.take 2) with
    | [valtype, mutability] => return .global valtype mutability
    | _ => throw (.unknownKind module name kind)
  | 4 =>
    let tagKind ← read Cursor.byte
    return .tag tagKind (← read Cursor.u32)
  | _ => throw (.unknownKind module name kind)

def scanEntry : Scan Import := do
  let module ← read Cursor.name
  let name ← read Cursor.name
  return { module := module, name := name, desc := ← scanDesc module name }

/-- `count` entries in a row. -/
def scanEntries : (count : Nat) → Scan (List Import)
  | 0 => pure []
  | count + 1 => do
    let entry ← scanEntry
    return entry :: (← scanEntries count)

/-- The entries in the body of an import section. -/
def scanSection (body : Bytes) : Except ScanError (List Import) :=
  let entries : Scan (List Import) := do
    let count ← read Cursor.u32
    scanEntries count.toNat
  (entries { rest := body }).1

/-- The next section: its id and body. -/
def nextSection : Scan (UInt8 × Bytes) := do
  let id ← read Cursor.byte
  let size ← read Cursor.u32 (.sectionHeader id)
  let remaining := (← get).remaining
  if remaining < size.toNat then throw (.sectionOverrun id size remaining)
  else return (id, ← read (Cursor.take size.toNat))

/-- The imports of the first import section among at most `sections` sections. -/
def scanSections : (sections : Nat) → Cursor → Except ScanError (List Import)
  | 0, _ => .ok []
  | sections + 1, c =>
    if c.rest.isEmpty then .ok []
    else
      match nextSection c with
      | (.error e, _) => .error e
      | (.ok (id, body), c') => if id = 2 then scanSection body else scanSections sections c'

/-- The imports of a binary module: those of its first import section, or none without one. A
section takes up at least two bytes, which bounds their number. -/
def scan (wasm : Bytes) : Except ScanError (List Import) :=
  if wasm.length < header.length ∨ wasm.take 4 ≠ header.take 4 then .error .notWasm
  else scanSections wasm.length { rest := wasm.drop header.length }

end Import

end GuestThreads.Wasm
