/-!
# Numbers as text

Decimal and hexadecimal digits, optionally filled up with zeros.
-/

namespace GuestThreads.Text

/-- Fill up on the left to `width` characters. -/
def padLeft (width : Nat) (fill : Char) (s : String) : String :=
  String.ofList (List.replicate (width - s.length) fill) ++ s

/-- Fill up with blanks on the right to `width` characters. -/
def padRight (width : Nat) (s : String) : String :=
  s ++ String.ofList (List.replicate (width - s.length) ' ')

/-- The digits in base sixteen, in lower case. -/
def hexDigits (n : Nat) : String := String.ofList (Nat.toDigits 16 n)

/-- The digits in base sixteen after the mark `0x`. -/
def hex (n : Nat) : String := "0x" ++ hexDigits n

/-- At least eight digits in base sixteen after the mark `0x`. -/
def hex8 (n : Nat) : String := "0x" ++ padLeft 8 '0' (hexDigits n)

def decimal (n : Nat) : String := String.ofList (Nat.toDigits 10 n)

def signedDecimal (v : Int) : String :=
  if v < 0 then "-" ++ decimal v.natAbs else decimal v.natAbs

end GuestThreads.Text
