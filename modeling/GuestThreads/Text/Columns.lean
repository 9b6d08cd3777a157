import GuestThreads.Text.Numeral

/-!
# Text in columns

How many columns of a terminal a text takes up, and texts filled up to a number of columns.
-/

namespace GuestThreads.Text

/-- Ranges of characters that take up two columns. -/
def wideRanges : List (Nat × Nat) := [
  (0x1100, 0x115f), (0x2e80, 0x303e), (0x3041, 0x33ff), (0x3400, 0x4dbf), (0x4e00, 0x9fff),
  (0xa000, 0xa4cf), (0xa960, 0xa97c), (0xac00, 0xd7a3), (0xf900, 0xfaff), (0xfe30, 0xfe6f),
  (0xff00, 0xff60), (0xffe0, 0xffe6), (0x1f300, 0x1f64f), (0x1f680, 0x1f6ff), (0x1f900, 0x1f9ff),
  (0x20000, 0x3fffd)]

/-- Ranges of characters that take up no column of their own. -/
def narrowRanges : List (Nat × Nat) := [
  (0x0000, 0x001f), (0x007f, 0x009f), (0x0300, 0x036f), (0x0483, 0x0489), (0x0591, 0x05bd),
  (0x200b, 0x200f), (0x20d0, 0x20f0), (0xfe00, 0xfe0f), (0xfe20, 0xfe2f)]

def charColumns (c : Char) : Nat :=
  let within (ranges : List (Nat × Nat)) : Bool :=
    ranges.any fun (low, high) => low ≤ c.toNat && c.toNat ≤ high
  if within narrowRanges then 0 else if within wideRanges then 2 else 1

def columns (s : String) : Nat := s.toList.foldl (· + charColumns ·) 0

/-- Fill up with blanks to a number of columns. -/
def fillColumns (width : Nat) (s : String) : String :=
  s ++ String.ofList (List.replicate (width - columns s) ' ')

/-- The end of a list of characters that fits into a number of columns. -/
def lastColumns (width : Nat) (cs : List Char) : List Char :=
  (fit width cs.reverse).reverse
where
  fit : Nat → List Char → List Char
    | _, [] => []
    | left, c :: rest => if charColumns c ≤ left then c :: fit (left - charColumns c) rest else []

/-- A block of lines of one width. A tab counts as four blanks. -/
def block (s : String) : String :=
  let untabbed := String.join (s.toList.map fun c => if c = '\t' then "    " else c.toString)
  let lines := untabbed.splitOn "\n"
  let width := (lines.map columns).foldl max 0
  match lines with
  | [line] => line
  | _ => String.intercalate "\n" (lines.map (fillColumns width))

end GuestThreads.Text
