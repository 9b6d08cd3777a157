/-!
# Places in a document

The text that is left to read, with the line and column of its first character. Carriage returns,
line feeds, and the three further break characters of Unicode end a line; a carriage return and a
line feed together end one line.
-/

namespace GuestThreads.Yaml

def isBlank (c : Char) : Bool := c = ' ' || c = '\t'

def isBreak (c : Char) : Bool :=
  c = '\n' || c = '\r' || c.toNat = 0x85 || c.toNat = 0x2028 || c.toNat = 0x2029

/-- The characters that a document may hold. -/
def isAllowed (c : Char) : Bool :=
  let n := c.toNat
  n = 0x09 || n = 0x0a || n = 0x0d || (0x20 ≤ n && n ≤ 0x7e) || n = 0x85 ||
    (0xa0 ≤ n && n ≤ 0xd7ff) || (0xe000 ≤ n && n ≤ 0xfffd) || 0x10000 ≤ n

/-- A character of names and tags. -/
def isWord (c : Char) : Bool := c.isAlphanum || c = '_' || c = '-'

structure Source where
  rest : List Char
  line : Nat := 0
  column : Nat := 0
  index : Nat := 0
  /-- A line break was read and nothing but blanks since. -/
  fresh : Bool := false

namespace Source

def head? (s : Source) : Option Char := s.rest.head?

/-- The character `n` places ahead is a blank or a break, or there is none. -/
def blankAt (s : Source) (n : Nat) : Bool :=
  match s.rest[n]? with
  | none => true
  | some c => isBlank c || isBreak c

def atBreak (s : Source) : Bool := s.head?.any isBreak

/-- At a break, or at the end. -/
def atLineEnd (s : Source) : Bool := s.head?.all isBreak

/-- Pass over one character of a line. -/
def skip (s : Source) : Source :=
  match s.rest with
  | [] => s
  | c :: rest =>
    { rest := rest, line := s.line, column := s.column + 1, index := s.index + 1,
      fresh := s.fresh && isBlank c }

/-- Pass over `n` characters of a line. -/
def skipMany : (n : Nat) → Source → Source
  | 0, s => s
  | n + 1, s => skipMany n s.skip

/-- Pass over a line break. -/
def skipLine (s : Source) : Source :=
  match s.rest with
  | '\r' :: '\n' :: rest =>
    { rest := rest, line := s.line + 1, column := 0, index := s.index + 2, fresh := true }
  | c :: rest =>
    if isBreak c then
      { rest := rest, line := s.line + 1, column := 0, index := s.index + 1, fresh := true }
    else s
  | [] => s

/-- The break at hand as it counts in a scalar: most breaks are line feeds. -/
def breakChar (s : Source) : Char :=
  match s.head? with
  | some c => if c.toNat = 0x2028 || c.toNat = 0x2029 then c else '\n'
  | none => '\n'

/-- Pass over characters of a line as long as they satisfy `p`. -/
def skipWhile (p : Char → Bool) (s : Source) : Source :=
  skipMany (s.rest.takeWhile p).length s

def skipBlanks (s : Source) : Source := s.skipWhile isBlank

/-- Pass over the rest of a line, up to its break. -/
def skipToLineEnd (s : Source) : Source := s.skipWhile fun c => !isBreak c

/-- `---` or `...` at the start of a line, standing alone. -/
def atIndicator (s : Source) (c : Char) : Bool :=
  s.column = 0 && s.rest.take 3 = [c, c, c] && s.blankAt 3

def atDocumentIndicator (s : Source) : Bool := s.atIndicator '-' || s.atIndicator '.'

end Source

end GuestThreads.Yaml
