import GuestThreads.Bytes
import GuestThreads.Text.Format
import GuestThreads.Wasm.Import
import GuestThreads.Wasm.Trap

/-!
# Faults

What can go wrong, as data. A report names the phase of the work and the kind of failure, and may
carry the fault that caused it. At the end of such a chain stands a cause from outside: guest code
that trapped, a module the engine refuses, a file that cannot be read. The wording is given once, by
`Fault.message`.
-/

namespace GuestThreads

/-- Where a fault occurred. -/
structure Phase where
  label : String
deriving DecidableEq, Repr

namespace Phase

def protocol : Phase := ⟨"protocol"⟩
def instantiate : Phase := ⟨"instantiate"⟩
def stack : Phase := ⟨"stack"⟩
def tls : Phase := ⟨"tls"⟩
def entry : Phase := ⟨"entry"⟩
def load : Phase := ⟨"load"⟩
def memory : Phase := ⟨"memory"⟩
def config : Phase := ⟨"config"⟩
def runtime : Phase := ⟨"runtime"⟩

end Phase

/-- What sort of fault it is. -/
structure Kind where
  label : String
deriving DecidableEq, Repr

namespace Kind

def protocolViolation : Kind := ⟨"protocol_violation"⟩
def instantiation : Kind := ⟨"instantiation"⟩
def missingExport : Kind := ⟨"missing_export"⟩
def typeMismatch : Kind := ⟨"type_mismatch"⟩
def trap : Kind := ⟨"trap"⟩
def invalidData : Kind := ⟨"invalid_data"⟩
def invalidInput : Kind := ⟨"invalid_input"⟩
def outOfBounds : Kind := ⟨"out_of_bounds"⟩
def notFound : Kind := ⟨"not_found"⟩
def notInitialized : Kind := ⟨"not_initialized"⟩
def closed : Kind := ⟨"closed"⟩

end Kind

/-- A value that a report carries along without showing it in its text. -/
inductive Attachment where
  | offset (address : UInt64)
  | verbatim (text : String)
deriving DecidableEq, Repr

/-- A fault in the library's own terms. The texts are left out when empty. -/
structure Report where
  phase : Phase
  kind : Kind
  /-- The export or import concerned. -/
  name : String := ""
  detail : String := ""
  attachment : Option Attachment := none
deriving DecidableEq, Repr

/-- The text of a report by itself. -/
def Report.headline (r : Report) : String :=
  "[" ++ r.phase.label ++ "] " ++ r.kind.label ++
    (if r.name = "" then "" else " at " ++ r.name) ++
    (if r.detail = "" then "" else ": " ++ r.detail)

/-- An import that the host does not provide, or that a module lacks. -/
structure MissingImport where
  module : String
  name : String
  kind : String
deriving DecidableEq, Repr

namespace MissingImport

def line (i : MissingImport) : String :=
  "    - " ++ i.name ++ (if i.kind = "" then "" else " (" ++ i.kind ++ ")")

/-- Enter an import into the group of its module. A module that is new gets a group behind the
others. -/
def enter : List (String × List MissingImport) → MissingImport → List (String × List MissingImport)
  | [], i => [(i.module, [i])]
  | (m, members) :: rest, i =>
    if m = i.module then (m, members ++ [i]) :: rest else (m, members) :: enter rest i

/-- The imports by module: modules in order of first appearance, imports in their given order. -/
def groups (imports : List MissingImport) : List (String × List MissingImport) :=
  imports.foldl enter []

def message (imports : List MissingImport) : String :=
  match imports with
  | [] => "[instantiate] missing_import: no imports specified"
  | _ =>
    "missing " ++ Text.decimal imports.length ++ " import(s):\n" ++
      String.intercalate "\n" ((groups imports).map fun (m, members) =>
        "\n  " ++ m ++ ":\n" ++ String.intercalate "\n" (members.map line))

end MissingImport

/-- What is wrong with a field of a document. -/
inductive FieldError where
  /-- A node that cannot be read as the wanted type. -/
  | unsuited (line : Nat) (tag text wanted : String)
  | duplicateKey (line : Nat) (key : String) (firstLine : Nat)
  /-- Two keys that differ as nodes name one field. -/
  | alreadySet (line : Nat) (name type : String)
deriving DecidableEq, Repr

/-- A text of more than ten bytes is shown by its first seven. -/
def FieldError.abbreviated (text : String) : String :=
  if text.utf8ByteSize ≤ 10 then text
  else Bytes.toText ((Bytes.ofString text).take 7) ++ "..."

def FieldError.message : FieldError → String
  | .unsuited line tag text wanted =>
    let shown := if tag = "!!seq" ∨ tag = "!!map" then text else " `" ++ abbreviated text ++ "`"
    s!"line {line}: cannot unmarshal {tag}{shown} into {wanted}"
  | .duplicateKey line key firstLine =>
    s!"line {line}: mapping key " ++ Text.quoted key ++ s!" already defined at line {firstLine}"
  | .alreadySet line name type => s!"line {line}: field {name} already set in type {type}"

/-- A cause from outside the library's own reports. -/
inductive Cause where
  | cancelled
  | trap (t : Wasm.Trap) (calls : List Wasm.Call)
  /-- The start function of a module trapped. -/
  | startTrap (function : String) (t : Wasm.Trap) (calls : List Wasm.Call)
  /-- The engine does not accept the binary. -/
  | invalidModule
  /-- The engine refuses to do what it is asked, for the given reason. -/
  | refused (reason : String)
  /-- The engine cannot be made with such a page limit. -/
  | pageLimit (pages : UInt32)
  | arity (expected given : Nat)
  /-- The guest was stopped because its context was cancelled. -/
  | exited
  /-- Bytes that cannot be read further. -/
  | stopped (why : Cursor.Stop)
  /-- Something in a module that the scan of its imports refuses. -/
  | unscannable (e : Wasm.Import.ScanError)
  | noMemory
  | foreignMemory
  | closedMemory
  | noFunction (name : String)
  | malformedDocument
  | unsuitedDocument (errors : List FieldError)
  | noSuchFile (path : String)
  | isDirectory (path : String)
  | unknownExporter (name : String)
  /-- The text of a fault is asked for where there is none. -/
  | noFault
  | unknownLogLevel (name : String)
deriving DecidableEq, Repr

def Cause.message : Cause → String
  | .cancelled => "context canceled"
  | .trap t calls => t.report calls
  | .startTrap function t calls => "start " ++ function ++ " failed: " ++ t.report calls
  | .invalidModule => "compile failed: invalid module"
  | .refused reason => reason
  | .pageLimit pages => s!"memoryLimitPages invalid: {pages.toNat} > 65536"
  | .arity expected given => s!"expected {expected} params, but passed {given}"
  | .exited => "module closed with context canceled"
  | .stopped why => why.message
  | .unscannable e => e.message
  | .noMemory => "no shared memory supplied"
  | .foreignMemory => "shared memory belongs to another engine"
  | .closedMemory => "shared memory is closed"
  | .noFunction name => "function " ++ Text.quoted name ++ " not found"
  | .malformedDocument => "yaml: malformed document"
  | .unsuitedDocument errors =>
    "yaml: unmarshal errors:" ++ String.join (errors.map fun e => "\n  " ++ e.message)
  | .noSuchFile path => "open " ++ path ++ ": no such file or directory"
  | .isDirectory path => "read " ++ path ++ ": is a directory"
  | .unknownExporter name => "unsupported exporter: " ++ name
  | .noFault => "runtime error: invalid memory address or nil pointer dereference"
  | .unknownLogLevel name => "unrecognized level: " ++ Text.quoted name

inductive Fault where
  | report (r : Report)
  | causedBy (r : Report) (cause : Fault)
  | missingImports (imports : List MissingImport)
  /-- A text of no further structure. -/
  | plain (text : String)
  /-- A text in front of another fault. -/
  | context (text : String) (cause : Fault)
  /-- The place, in the library's own words, where another fault was met. -/
  | within (place : String) (cause : Fault)
  | external (cause : Cause)
deriving DecidableEq, Repr

namespace Fault

/-- The text of a fault, with the outside causes worded by `cause`. -/
def render (cause : Cause → String) : Fault → String
  | .report r => r.headline
  | .causedBy r inner => r.headline ++ " (caused by: " ++ inner.render cause ++ ")"
  | .missingImports imports => MissingImport.message imports
  | .plain text => text
  | .context text inner => text ++ ": " ++ inner.render cause
  | .within place inner => place ++ ": " ++ inner.render cause
  | .external c => cause c

def message : Fault → String := render Cause.message

/-- The fault behind this one. -/
def cause? : Fault → Option Fault
  | .causedBy _ inner => some inner
  | .context _ inner => some inner
  | .within _ inner => some inner
  | _ => none

/-- The report at the head of a fault. -/
def report? : Fault → Option Report
  | .report r => some r
  | .causedBy r _ => some r
  | _ => none

/-- Whether a fault by itself, without its causes, is of the target's sort: reports agree in phase
and kind, and any two lists of missing imports agree. Causes from outside agree when they are the
same, and so do places. A text that was handed in is told from every other, also from one that reads
alike. -/
def sameSort (f target : Fault) : Bool :=
  match f.report?, target.report? with
  | some r, some t => r.phase = t.phase && r.kind = t.kind
  | _, _ =>
    match f, target with
    | .missingImports _, .missingImports _ => true
    | .external c, .external d => c = d
    | .within place inner, .within place' inner' => place = place' && inner = inner'
    | _, _ => false

/-- Whether a fault, or one in its chain of causes, is of the target's sort. -/
def is (f target : Fault) : Bool :=
  f.sameSort target ||
    match f with
    | .causedBy _ inner => inner.is target
    | .context _ inner => inner.is target
    | .within _ inner => inner.is target
    | _ => false

/-- Whether a report occurs in the chain. -/
def hasReport : Fault → Bool
  | .report _ => true
  | .causedBy _ _ => true
  | .context _ inner => inner.hasReport
  | .within _ inner => inner.hasReport
  | _ => false

/-- A report in front of a fault, or by itself. -/
def ofReport (r : Report) : Option Fault → Fault
  | none => .report r
  | some inner => .causedBy r inner

def protocolViolation (detail : String) : Fault :=
  .report { phase := .protocol, kind := .protocolViolation, detail := detail }

def instantiation (cause : Option Fault) : Fault :=
  ofReport { phase := .instantiate, kind := .instantiation, detail := "instantiate module" } cause

def missingExport (phase : Phase) (name : String) : Fault :=
  .report { phase := phase, kind := .missingExport, name := name,
            detail := "module does not export " ++ Text.quoted name }

def trapped (phase : Phase) (name : String) (cause : Option Fault) : Fault :=
  ofReport { phase := phase, kind := .trap, name := name } cause

def typeMismatch (phase : Phase) (name want got : String) : Fault :=
  .report { phase := phase, kind := .typeMismatch, name := name,
            detail := "want " ++ want ++ ", got " ++ got }

/-- An access beyond the memory. The end of the range is computed in 64 bits. -/
def outOfBounds (phase : Phase) (offset length size : UInt64) : Fault :=
  .report { phase := phase, kind := .outOfBounds,
            detail := "range [" ++ Text.hex offset.toNat ++ ", " ++
              Text.hex (offset + length).toNat ++ ") exceeds memory size " ++ Text.hex size.toNat,
            attachment := some (.offset offset) }

def notInitialized (phase : Phase) (what : String) : Fault :=
  .report { phase := phase, kind := .notInitialized, detail := what ++ " not initialized" }

def notFound (phase : Phase) (what name : String) : Fault :=
  .report { phase := phase, kind := .notFound,
            detail := what ++ " " ++ Text.quoted name ++ " not found" }

def invalidInput (phase : Phase) (detail : String) : Fault :=
  .report { phase := phase, kind := .invalidInput, detail := detail }

def wrap (phase : Phase) (kind : Kind) (cause : Option Fault) (detail : String) : Fault :=
  ofReport { phase := phase, kind := kind, detail := detail } cause

def loading (detail : String) (cause : Option Fault) : Fault :=
  wrap .load .invalidData cause detail

def ofFailure (f : Cursor.Failure) : Fault := .within f.place (.external (.stopped f.stop))

def ofScanError : Wasm.Import.ScanError → Fault
  | .unreadable f => ofFailure f
  | .sectionHeader id f => .within (Wasm.Import.sectionPlace id) (ofFailure f)
  | e => .external (.unscannable e)

def unreadableImports (e : Wasm.Import.ScanError) : Fault := .within "read imports" (ofScanError e)

end Fault

end GuestThreads
