import GuestThreads.Bytes

/-!
# Base 64

Bytes as text: three bytes are four characters, and the last group is filled up with `=`. Line
breaks between the characters do not count.
-/

namespace GuestThreads.Text.Base64

def value? (c : Char) : Option Nat :=
  if c.isUpper then some (c.toNat - 'A'.toNat)
  else if c.isLower then some (c.toNat - 'a'.toNat + 26)
  else if c.isDigit then some (c.toNat - '0'.toNat + 52)
  else if c = '+' then some 62
  else if c = '/' then some 63
  else none

/-- The number that four characters spell in base 64. -/
def group? (a b c d : Char) : Option Nat := do
  return (((← value? a) * 64 + (← value? b)) * 64 + (← value? c)) * 64 + (← value? d)

def decodeGroups : List Char → Option Bytes
  | [] => some []
  | [a, b, '=', '='] => do
    let n ← group? a b 'A' 'A'
    return [(n / 65536).toUInt8]
  | [a, b, c, '='] => do
    let n ← group? a b c 'A'
    return [(n / 65536).toUInt8, (n / 256).toUInt8]
  | a :: b :: c :: d :: rest => do
    let n ← group? a b c d
    return (n / 65536).toUInt8 :: (n / 256).toUInt8 :: n.toUInt8 :: (← decodeGroups rest)
  | _ => none

def decode? (text : List Char) : Option Bytes :=
  decodeGroups (text.filter fun c => c ≠ '\n' && c ≠ '\r')

end GuestThreads.Text.Base64
