import GuestThreads.Text.Blank
import GuestThreads.Text.Literal

/-!
# Closure pointers

The pointers handed to the threads' entrypoints are given as a list of literals between commas.
Blank parts are skipped, and the last pointer serves every further thread.
-/

namespace GuestThreads.Closures

/-- A part that is no pointer, and why. -/
structure Invalid where
  part : String
  reason : Text.LiteralError
deriving DecidableEq, Repr

def Invalid.message (e : Invalid) : String :=
  "invalid closure pointer " ++ Text.quoted e.part ++ ": " ++ e.reason.report e.part

/-- The parts between commas. -/
def splitCommas : List Char → List (List Char)
  | [] => [[]]
  | c :: rest =>
    match splitCommas rest with
    | [] => [[]]
    | part :: parts => if c = ',' then [] :: part :: parts else (c :: part) :: parts

def parsePointer (part : List Char) : Except Invalid UInt32 :=
  match Text.parseUnsigned Text.maxWord32 part with
  | .ok v => .ok v.toUInt32
  | .error e => .error { part := String.ofList part, reason := e }

/-- The pointers of a list; a list of blank parts means the null pointer. -/
def parse (text : String) : Except Invalid (List UInt32) := do
  let parts := ((splitCommas text.toList).map Text.trim).filter (!·.isEmpty)
  let pointers ← parts.mapM parsePointer
  return if pointers.isEmpty then [0] else pointers

/-- The pointer for thread `i`. -/
def pointerFor (pointers : List UInt32) (i : Nat) : UInt32 :=
  (pointers[i]?).getD (pointers.getLastD 0)

end GuestThreads.Closures
