import GuestThreads.Text.Numeral
import GuestThreads.Text.Printable

/-!
# Quoted text

A text between double quotes on one line: the quote and the backslash are escaped, and so is every
character that is not printable.
-/

namespace GuestThreads.Text

/-- How a character stands between double quotes. -/
def quotedChar (c : Char) : String :=
  if c = '"' then "\\\""
  else if c = '\\' then "\\\\"
  else if isPrintable c then String.singleton c
  else
    match c.toNat with
    | 0x07 => "\\a"
    | 0x08 => "\\b"
    | 0x0c => "\\f"
    | 0x0a => "\\n"
    | 0x0d => "\\r"
    | 0x09 => "\\t"
    | 0x0b => "\\v"
    | n =>
      if n < 0x20 ∨ n = 0x7f then "\\x" ++ padLeft 2 '0' (hexDigits n)
      else if n < 0x10000 then "\\u" ++ padLeft 4 '0' (hexDigits n)
      else "\\U" ++ padLeft 8 '0' (hexDigits n)

def quoted (s : String) : String :=
  "\"" ++ String.join (s.toList.map quotedChar) ++ "\""

end GuestThreads.Text
