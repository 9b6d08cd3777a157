import GuestThreads.Text.Quoted

/-!
# Integer literals

An unsigned literal is decimal, or carries one of the marks `0x`, `0o`, `0b`, or a leading zero for
octal. An underscore may stand between two digits and after the mark.
-/

namespace GuestThreads.Text

inductive LiteralError where
  | syntaxError
  | outOfRange
deriving DecidableEq, Repr

def LiteralError.message : LiteralError → String
  | .syntaxError => "invalid syntax"
  | .outOfRange => "value out of range"

/-- What reading a text as an unsigned literal reports. -/
def LiteralError.report (text : String) (e : LiteralError) : String :=
  "strconv.ParseUint: parsing " ++ quoted text ++ ": " ++ e.message

def digitValue? (c : Char) : Option Nat :=
  if '0' ≤ c ∧ c ≤ '9' then some (c.toNat - '0'.toNat)
  else if 'a' ≤ c ∧ c ≤ 'z' then some (c.toNat - 'a'.toNat + 10)
  else if 'A' ≤ c ∧ c ≤ 'Z' then some (c.toNat - 'A'.toNat + 10)
  else none

/-- The base of a literal and its digits. A lone zero is an octal literal without digits. -/
def literalBase : List Char → Nat × List Char
  | '0' :: m :: d :: rest =>
    if m = 'b' ∨ m = 'B' then (2, d :: rest)
    else if m = 'o' ∨ m = 'O' then (8, d :: rest)
    else if m = 'x' ∨ m = 'X' then (16, d :: rest)
    else (8, m :: d :: rest)
  | '0' :: rest => (8, rest)
  | cs => (10, cs)

/-- The value of digits read after `value`, skipping underscores. The first character that is no
digit, or that leads beyond `limit`, decides the error. -/
def digitsValue (base limit : Nat) : (value : Nat) → List Char → Except LiteralError Nat
  | value, [] => .ok value
  | value, c :: rest =>
    if c = '_' then digitsValue base limit value rest
    else
      match digitValue? c with
      | none => .error .syntaxError
      | some d =>
        if base ≤ d then .error .syntaxError
        else if limit < value * base + d then .error .outOfRange
        else digitsValue base limit (value * base + d) rest

/-- Whether every underscore stands after a digit and before one; `afterDigit` tells whether a
digit, or the mark of a base, came last. -/
def underscoresSeparate : (afterDigit : Bool) → List Char → Bool
  | _, [] => true
  | afterDigit, '_' :: rest =>
    match rest with
    | [] => false
    | c :: _ => afterDigit && c != '_' && underscoresSeparate false rest
  | _, _ :: rest => underscoresSeparate true rest

/-- Underscores are judged on the whole literal: a leading zero is a digit, a mark counts as one. -/
def underscoresAllowed (cs : List Char) : Bool :=
  match literalBase cs with
  | (10, digits) => underscoresSeparate false digits
  | (_, digits) => underscoresSeparate true digits

/-- The greatest unsigned number of 32 bits. -/
def maxWord32 : Nat := 0xffffffff

/-- The greatest unsigned number of 64 bits. -/
def maxWord64 : Nat := 0xffffffffffffffff

/-- The greatest signed number of 64 bits. -/
def maxInt64 : Nat := 0x7fffffffffffffff

/-- The value of an unsigned literal that is at most `limit`. -/
def parseUnsigned (limit : Nat) (text : List Char) : Except LiteralError Nat :=
  match text with
  | [] => .error .syntaxError
  | cs => do
    let (base, digits) := literalBase cs
    let value ← digitsValue base limit 0 digits
    if cs.contains '_' && !underscoresAllowed cs then throw .syntaxError
    return value

/-- The value of a literal that may carry a sign, in 64 bits. -/
def parseSigned (text : List Char) : Except LiteralError Int :=
  match text with
  | '-' :: rest => do
    let v ← parseUnsigned maxWord64 rest
    if maxInt64 + 1 < v then throw .outOfRange
    return -v
  | '+' :: rest => do
    let v ← parseUnsigned maxWord64 rest
    if maxInt64 < v then throw .outOfRange
    return v
  | cs => do
    let v ← parseUnsigned maxWord64 cs
    if maxInt64 < v then throw .outOfRange
    return v

end GuestThreads.Text
