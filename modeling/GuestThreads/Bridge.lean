import GuestThreads.Fault
import GuestThreads.MemoryView

/-!
# Bridges

A bridge drives an instance after its thread is brought up. It holds named operations that may call
back into the bridge; `invoke` prefers an operation over an export of the same name. Once a bridge
is closed it never touches the instance again.
-/

namespace GuestThreads

/-- The instance behind a bridge, in a world of type `σ` that knows whether the bridge is closed. -/
structure Handle (σ : Type) where
  closed : σ → Bool
  /-- Take note that the bridge is closed. -/
  shut : σ → σ
  hasFunction : String → σ → Bool × σ
  call : String → List UInt64 → σ → Except Fault (List UInt64) × σ
  global : String → σ → Except Fault UInt64 × σ
  memory : σ → Option Wasm.Memory × σ
  close : σ → Except Fault Unit × σ

namespace Bridge

/-- What an operation does with the bridge it runs on, one request after the other. -/
inductive Script where
  | done (result : Except Fault (List UInt64))
  | call (name : String) (args : List UInt64) (next : Except Fault (List UInt64) → Script)
  | invoke (name : String) (args : List UInt64) (next : Except Fault (List UInt64) → Script)
  | global (name : String) (next : Except Fault UInt64 → Script)
  | memory (next : Option Wasm.Memory → Script)
  | close (next : Except Fault Unit → Script)

abbrev Op := List UInt64 → Script

namespace Op

/-- Return the arguments. -/
def echo : Op := fun args => .done (.ok args)

/-- The sum of the arguments in 64 bits. -/
def sum : Op := fun args => .done (.ok [args.foldl (· + ·) 0])

def callTo (target : String) : Op := fun args => .call target args .done

def invokeTo (target : String) : Op := fun args => .invoke target args .done

def globalOf (target : String) : Op := fun _ =>
  .global target fun r => .done (r.map fun v => [v])

/-- The word at the address that the first argument gives. -/
def word : Op := fun args =>
  .memory fun m =>
    .done ((MemoryView.readU32 m (args.headD 0).toUInt32).map fun v => [v.toUInt64])

def shut : Op := fun _ => .close fun r => .done (r.map fun _ => [])

def fail (f : Fault) : Op := fun _ => .done (.error f)

end Op

end Bridge

structure Bridge where
  ops : List (String × Bridge.Op) := []
  closed : Bool := false

namespace Bridge

variable {σ : Type}

def closedFault : Fault := .report { phase := .runtime, kind := .closed, detail := "bridge closed" }

/-- The operation registered last under a name. -/
def op? (b : Bridge) (name : String) : Option Op := b.ops.reverse.lookup name

/-- The names of the operations in order of their bytes, each once. -/
def opNames (b : Bridge) : List String :=
  ((b.ops.map (·.1)).mergeSort fun x y => x ≤ y).eraseDups

/-- A view of the instance's memory. -/
def memory (h : Handle σ) (s : σ) : Option Wasm.Memory × σ :=
  if h.closed s then (none, s) else h.memory s

/-- Call an export of an open bridge's instance. -/
def callExport (h : Handle σ) (name : String) (args : List UInt64) (s : σ) :
    Except Fault (List UInt64) × σ :=
  let (known, s) := h.hasFunction name s
  if known then
    let (r, s') := h.call name args s
    (r.mapError fun e => .trapped .runtime name (some e), s')
  else (.error (.notFound .runtime "export" name), s)

def call (h : Handle σ) (name : String) (args : List UInt64) (s : σ) :
    Except Fault (List UInt64) × σ :=
  if h.closed s then (.error closedFault, s) else callExport h name args s

def global (h : Handle σ) (name : String) (s : σ) : Except Fault UInt64 × σ :=
  if h.closed s then (.error closedFault, s) else h.global name s

/-- Close the instance. Only the first close does anything. -/
def close (h : Handle σ) (s : σ) : Except Fault Unit × σ :=
  if h.closed s then (.ok (), s) else h.close (h.shut s)

/-- The fault of operations that invoke each other without end. -/
def tooDeep : Fault := .plain "operations nested too deeply"

/-- Serve the requests of a script, with `nested` for what it invokes. -/
def perform (h : Handle σ) (nested : String → List UInt64 → σ → Except Fault (List UInt64) × σ) :
    Script → σ → Except Fault (List UInt64) × σ
  | .done r, s => (r, s)
  | .call name args next, s =>
    let (r, s') := call h name args s
    perform h nested (next r) s'
  | .invoke name args next, s =>
    let (r, s') := nested name args s
    perform h nested (next r) s'
  | .global name next, s =>
    let (r, s') := global h name s
    perform h nested (next r) s'
  | .memory next, s =>
    let (m, s') := memory h s
    perform h nested (next m) s'
  | .close next, s =>
    let (r, s') := close h s
    perform h nested (next r) s'

/-- Run the operation of that name, or the export. At most `depth` operations are nested. -/
def invokeWithin (h : Handle σ) (b : Bridge) (depth : Nat) (name : String) (args : List UInt64)
    (s : σ) : Except Fault (List UInt64) × σ :=
  if h.closed s then (.error closedFault, s)
  else
    match b.op? name with
    | none => callExport h name args s
    | some op =>
      match depth with
      | 0 => (.error tooDeep, s)
      | depth + 1 => perform h (invokeWithin h b depth) (op args) s

/-- How deep operations may be nested. -/
def depthLimit : Nat := 1000

def invoke (h : Handle σ) (b : Bridge) (name : String) (args : List UInt64) (s : σ) :
    Except Fault (List UInt64) × σ :=
  invokeWithin h b depthLimit name args s

end Bridge

end GuestThreads
