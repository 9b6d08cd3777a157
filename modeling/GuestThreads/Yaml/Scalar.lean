import GuestThreads.Yaml.Source

/-!
# Reading scalars

Plain, quoted and block scalars. Line breaks inside a scalar are folded: a single one becomes a
space, and of several the first is dropped.
-/

namespace GuestThreads.Yaml

inductive Style where
  | plain
  | quoted
  | block
deriving DecidableEq, Repr

/-- The white space between two pieces of a scalar. -/
structure Gap where
  /-- A line break was met. -/
  broken : Bool := false
  spaces : List Char := []
  /-- The first break, then all further ones. -/
  first : List Char := []
  more : List Char := []

namespace Gap

/-- What the gap becomes in the scalar. -/
def text (g : Gap) : List Char :=
  if g.broken then
    match g.first with
    | '\n' :: _ => if g.more.isEmpty then [' '] else g.more
    | _ => g.first ++ g.more
  else g.spaces

/-- Read on over white space, at most `limit` characters. In a plain scalar with the given least
indentation, a tab must not stand in for it. -/
def read (indent : Option Nat) : (limit : Nat) → Gap → Source → Option (Gap × Source)
  | 0, g, s => some (g, s)
  | limit + 1, g, s =>
    match s.head? with
    | none => some (g, s)
    | some c =>
      if isBlank c then
        if g.broken && c = '\t' && indent.any (s.column < ·) then none
        else if g.broken then read indent limit g s.skip
        else read indent limit { g with spaces := g.spaces ++ [c] } s.skip
      else if isBreak c then
        let b := s.breakChar
        let g := if g.broken then { g with more := g.more ++ [b] }
          else { broken := true, spaces := [], first := [b], more := g.more }
        read indent limit g s.skipLine
      else some (g, s)

end Gap

/-- The characters up to one that ends a plain scalar or a piece of it. -/
def plainRun (flow : Bool) : List Char → List Char
  | [] => []
  | c :: rest =>
    if isBlank c || isBreak c then []
    else if c = ':' && rest.head?.all (fun d => isBlank d || isBreak d) then []
    else if flow && [',', '?', '[', ']', '\x7b', '\x7d'].contains c then []
    else c :: plainRun flow rest

/-- A plain scalar from its first character on. Also tells whether a line break was passed behind
it. -/
def plainScalar (flow : Bool) (indent : Nat) :
    (limit : Nat) → List Char → Gap → Source → Option (List Char × Bool × Source)
  | 0, acc, g, s => some (acc, g.broken, s)
  | limit + 1, acc, g, s =>
    if s.atDocumentIndicator || s.head? = some '#' then some (acc, g.broken, s)
    else
      let run := plainRun flow s.rest
      let (acc, g) := if run.isEmpty then (acc, g) else (acc ++ g.text ++ run, {})
      let s := s.skipMany run.length
      if s.head?.all fun c => !(isBlank c || isBreak c) then some (acc, g.broken, s)
      else do
        let (g, s) ← g.read (some indent) s.rest.length s
        if !flow && s.column < indent then return (acc, g.broken, s)
        else plainScalar flow indent limit acc g s

def hexValue? (c : Char) : Option Nat :=
  if c.isDigit then some (c.toNat - '0'.toNat)
  else if 'a' ≤ c && c ≤ 'f' then some (c.toNat - 'a'.toNat + 10)
  else if 'A' ≤ c && c ≤ 'F' then some (c.toNat - 'A'.toNat + 10)
  else none

/-- The character with the given code in base sixteen. -/
def codeChar? (digits : List Char) : Option Char := do
  let values ← digits.mapM hexValue?
  let n := values.foldl (fun n d => n * 16 + d) 0
  if n.isValidChar then some (Char.ofNat n) else none

/-- What an escape letter stands for, or how many digits of a code follow it. -/
def escape? (c : Char) : Option (Char ⊕ Nat) :=
  match c with
  | '0' => some (.inl (Char.ofNat 0))
  | 'a' => some (.inl (Char.ofNat 7))
  | 'b' => some (.inl (Char.ofNat 8))
  | 't' => some (.inl '\t')
  | '\t' => some (.inl '\t')
  | 'n' => some (.inl '\n')
  | 'v' => some (.inl (Char.ofNat 11))
  | 'f' => some (.inl (Char.ofNat 12))
  | 'r' => some (.inl '\r')
  | 'e' => some (.inl (Char.ofNat 27))
  | ' ' => some (.inl ' ')
  | '"' => some (.inl '"')
  | '\\' => some (.inl '\\')
  | 'N' => some (.inl (Char.ofNat 0x85))
  | '_' => some (.inl (Char.ofNat 0xa0))
  | 'L' => some (.inl (Char.ofNat 0x2028))
  | 'P' => some (.inl (Char.ofNat 0x2029))
  | 'x' => some (.inr 2)
  | 'u' => some (.inr 4)
  | 'U' => some (.inr 8)
  | _ => if c.toNat = 39 then some (.inl c) else none

/-- A piece of a quoted scalar up to white space or the closing quote. An escaped line break ends
the piece and opens a gap. -/
def quotedRun (double : Bool) (quote : Char) :
    (limit : Nat) → List Char → Source → Option (List Char × Bool × Source)
  | 0, _, _ => none
  | limit + 1, acc, s =>
    match s.rest with
    | [] => some (acc, false, s)
    | c :: rest =>
      if isBlank c || isBreak c then some (acc, false, s)
      else if c = quote then
        if !double && rest.head? = some quote then
          quotedRun double quote limit (acc ++ [quote]) s.skip.skip
        else some (acc, false, s)
      else if double && c = '\\' then
        match rest with
        | [] => none
        | e :: more =>
          if isBreak e then some (acc, true, s.skip.skipLine)
          else
            match escape? e with
            | none => none
            | some (.inl v) => quotedRun double quote limit (acc ++ [v]) s.skip.skip
            | some (.inr n) =>
              let digits := more.take n
              if digits.length < n then none
              else do
                let v ← codeChar? digits
                quotedRun double quote limit (acc ++ [v]) (s.skipMany (2 + n))
      else quotedRun double quote limit (acc ++ [c]) s.skip

/-- A quoted scalar behind its opening quote. -/
def quotedScalar (double : Bool) (quote : Char) :
    (limit : Nat) → List Char → Source → Option (List Char × Source)
  | 0, _, _ => none
  | limit + 1, acc, s =>
    if s.atDocumentIndicator || s.rest.isEmpty then none
    else do
      let (acc, escaped, s) ← quotedRun double quote (s.rest.length + 1) acc s
      if s.head? = some quote then return (acc, s.skip)
      else
        let (g, s) ← ({ broken := escaped } : Gap).read none s.rest.length s
        quotedScalar double quote limit (acc ++ g.text) s

/-- How a block scalar ends. -/
inductive Chomping where
  | strip
  | clip
  | keep
deriving DecidableEq

/-- The indicators behind the mark of a block scalar: how it ends, and the indentation given. -/
def blockHeader (s : Source) : Option (Chomping × Option Nat × Source) :=
  let sign (s : Source) : Chomping × Source :=
    match s.head? with
    | some '+' => (.keep, s.skip)
    | some '-' => (.strip, s.skip)
    | _ => (.clip, s)
  let digit (s : Source) : Option (Option Nat × Source) :=
    match s.head? with
    | some c =>
      if c = '0' then none
      else if c.isDigit then some (some (c.toNat - '0'.toNat), s.skip)
      else some (none, s)
    | none => some (none, s)
  match sign s with
  | (.clip, s) => do
    let (indent, s) ← digit s
    match indent with
    | none => return (.clip, none, s)
    | some n =>
      let (chomping, s) := sign s
      return (chomping, some n, s)
  | (chomping, s) => do
    let (indent, s) ← digit s
    return (chomping, indent, s)

/-- Pass over indentation and empty lines. Without a known indentation, the deepest one met is
reported. -/
def blockBreaks (indent : Option Nat) :
    (limit : Nat) → (deepest : Nat) → List Char → Source → Option (Nat × List Char × Source)
  | 0, deepest, breaks, s => some (deepest, breaks, s)
  | limit + 1, deepest, breaks, s =>
    let spaces := (s.rest.takeWhile (· = ' ')).length
    let s := s.skipMany (match indent with | some n => min spaces (n - s.column) | none => spaces)
    let deepest := max deepest s.column
    if indent.all (s.column < ·) && s.head? = some '\t' then none
    else if s.atBreak then blockBreaks indent limit deepest (breaks ++ [s.breakChar]) s.skipLine
    else some (deepest, breaks, s)

/-- The lines of a block scalar with the given indentation. `first` is the break behind the last
line read, `more` are the empty lines behind it. Returned with the text are the two of them. -/
def blockLines (literal : Bool) (indent : Nat) :
    (limit : Nat) → List Char → (first more : List Char) → (indented : Bool) → Source →
      Option (List Char × List Char × List Char × Source)
  | 0, acc, first, more, _, s => some (acc, first, more, s)
  | limit + 1, acc, first, more, indented, s =>
    if s.column ≠ indent || s.rest.isEmpty then some (acc, first, more, s)
    else do
      let blank := s.head?.any isBlank
      let fold := !literal && !indented && !blank && first.head? = some '\n'
      let between := if fold then (if more.isEmpty then [' '] else []) else first
      let line := s.rest.takeWhile fun c => !isBreak c
      let s := s.skipMany line.length
      let (ending, s) := if s.atBreak then ([s.breakChar], s.skipLine) else ([], s)
      let (_, breaks, s) ← blockBreaks (some indent) s.rest.length.succ 0 [] s
      blockLines literal indent limit (acc ++ between ++ more ++ line) ending breaks blank s

/-- A block scalar behind its mark, inside a block at column `outer` if there is one. -/
def blockScalar (literal : Bool) (outer : Option Nat) (s : Source) :
    Option (List Char × Source) := do
  let (chomping, given, s) ← blockHeader s
  let s := s.skipBlanks
  let s := if s.head? = some '#' then s.skipToLineEnd else s
  if !s.atLineEnd then none
  let s := if s.atBreak then s.skipLine else s
  let known := given.map fun n => n + outer.getD 0
  let (deepest, breaks, s) ← blockBreaks known s.rest.length.succ 0 [] s
  let least := match outer with | some n => n + 1 | none => 1
  let indent := known.getD (max deepest least)
  let (text, first, more, s) ← blockLines literal indent s.rest.length.succ [] [] breaks false s
  let kept := match chomping with
    | .strip => []
    | .clip => first
    | .keep => first ++ more
  return (text ++ kept, s)

end GuestThreads.Yaml
