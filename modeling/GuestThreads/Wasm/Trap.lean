import GuestThreads.Wasm.Types

/-!
# Traps

Why guest code stops before its end, and the calls that were active then.
-/

namespace GuestThreads.Wasm

inductive Trap where
  | unreachable
  | outOfBounds
  | unaligned
  | stackOverflow
  /-- Any other reason, in the machine's words. -/
  | other (message : String)
deriving DecidableEq, Repr

def Trap.message : Trap → String
  | .unreachable => "unreachable"
  | .outOfBounds => "out of bounds memory access"
  | .unaligned => "unaligned atomic"
  | .stackOverflow => "stack overflow"
  | .other message => message

/-- A call that was active: the function's index in its module, and its type. -/
structure Call where
  index : Nat
  type : FuncType
deriving DecidableEq, Repr

/-- A call's line in a stack trace. -/
def Call.trace (c : Call) : String :=
  let params := String.intercalate "," (c.type.params.map ValType.name)
  let line := s!".${c.index}({params})"
  match c.type.results with
  | [] => line
  | [result] => line ++ " " ++ result.name
  | results => line ++ " (" ++ String.intercalate "," (results.map ValType.name) ++ ")"

/-- The text of a trap: its reason, then the active calls, innermost first. -/
def Trap.report (t : Trap) (calls : List Call) : String :=
  "wasm error: " ++ t.message ++ "\nwasm stack trace:" ++
    String.join (calls.map fun c => "\n\t" ++ c.trace)

end GuestThreads.Wasm
