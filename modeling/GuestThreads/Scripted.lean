import GuestThreads.Engine

/-!
# Scripted guests

A scripted guest stands in for an instance: what it posts, returns and refuses is written down in
advance, and it keeps a log of what is asked of it.
-/

namespace GuestThreads

structure Scripted.Function where
  params : List Wasm.ValType := []
  signals : List Signal := []
  error : Option Fault := none
  results : List UInt64 := []

structure Scripted where
  instantiateSignals : List Signal := []
  instantiateError : Option Fault := none
  setGlobalErrors : List (String × Fault) := []
  functions : List (String × Scripted.Function) := []
  globals : List (String × UInt64) := []
  closeError : Option Fault := none
  /-- Where its signals go once it is instantiated. -/
  sink : Option Sink := none
  /-- The worker that uses it. -/
  worker : Option Nat := none
  log : List String := []

namespace Scripted

def global (g : Scripted) (name : String) : Except Fault UInt64 :=
  match g.globals.lookup name with
  | some v => .ok v
  | none => .error (.notFound .runtime "global" name)

def callLine (name : String) (args : List UInt64) : String :=
  "call " ++ name ++ "(" ++ String.intercalate "," (args.map fun a => Text.decimal a.toNat) ++ ")"

def setLine (name : String) (v : UInt32) : String :=
  "set " ++ name ++ "=" ++ Text.decimal v.toNat

def instantiateLine (bytes : Bytes) : String :=
  "instantiate " ++ Text.decimal bytes.length ++ " bytes"

end Scripted

end GuestThreads
