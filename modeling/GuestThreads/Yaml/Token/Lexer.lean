import GuestThreads.Yaml.Token

/-!
# Cutting a text into tokens

Blocks are opened and closed by the columns at which their tokens start. Whatever may turn out to be
a key is remembered until a colon follows it or it can no longer be one.

The tokens end with a mark where the text cannot be cut any further. Reading a token means to look
at the two behind it as well, so the mark stands that much earlier, and in front of anything that
might still have become a key.
-/

namespace GuestThreads.Yaml

/-- A place where a key may have started. -/
structure KeyStart where
  /-- The number of the token that would be the key. -/
  token : Nat
  line : Nat
  column : Nat
  index : Nat
  /-- The block asks for a key here. -/
  required : Bool

structure Lexer where
  source : Source
  tokens : Array Token := #[]
  /-- Where a key may have started, the innermost collection first. -/
  keys : List (Option KeyStart) := [none]
  /-- The column of the current block, then those around it. There is none outside all blocks. -/
  indents : List Nat := []
  /-- How many flow collections are open. -/
  flow : Nat := 0
  /-- A key may start here. -/
  keyAllowed : Bool := true

namespace Lexer

def push (k : Token.Kind) (line : Nat) (s : Lexer) : Lexer :=
  { s with tokens := s.tokens.push { kind := k, line := line } }

/-- Insert a token in front of the token with the given number. -/
def insert (number : Nat) (k : Token.Kind) (line : Nat) (s : Lexer) : Lexer :=
  let t : Token := { kind := k, line := line }
  { s with tokens := (s.tokens.toList.take number ++ t :: s.tokens.toList.drop number).toArray }

/-- Whether a key that started there can still be one: it stays on its line and is not too long. -/
def stillKey (s : Lexer) (k : KeyStart) : Bool :=
  k.line = s.source.line && s.source.index ≤ k.index + 1024

def setKey (k : Option KeyStart) (s : Lexer) : Lexer := { s with keys := k :: s.keys.tail }

/-- Forget a possible key. One that the block asks for cannot be forgotten. -/
def removeKey (s : Lexer) : Option Lexer :=
  match s.keys.head?.join with
  | none => some s
  | some k => if k.required then none else some (s.setKey none)

/-- Remember that a key may start here. -/
def saveKey (s : Lexer) : Option Lexer :=
  if s.keyAllowed then do
    let src := s.source
    let k : KeyStart := {
      token := s.tokens.size, line := src.line, column := src.column, index := src.index
      required := s.flow = 0 && s.indents.head? = some src.column }
    return (← s.removeKey).setKey (some k)
  else some s

/-- Open a block at a column, if it is deeper than the current one. -/
def rollIndent (column number : Nat) (k : Token.Kind) (line : Nat) (s : Lexer) : Lexer :=
  if s.flow = 0 && s.indents.head?.all (· < column) then
    { s.insert number k line with indents := column :: s.indents }
  else s

/-- Close the blocks that are deeper than a column; without a column, all of them. -/
def unrollIndent (column : Option Nat) (s : Lexer) : Lexer :=
  if s.flow ≠ 0 then s
  else
    let closed := s.indents.takeWhile fun i => column.all (· < i)
    let s' := { s with indents := s.indents.drop closed.length }
    closed.foldl (fun s _ => s.push .blockEnd s.source.line) s'

/-- Pass over blank lines and comments behind a comment, up to the end of the last comment. -/
def moreComments : (limit : Nat) → Source → Source
  | 0, s => s
  | limit + 1, s =>
    let blank := s.rest.takeWhile fun c => isBlank c || isBreak c
    if s.rest[blank.length]? = some '#' then
      let rec pass : (limit : Nat) → Source → Source
        | 0, s => s
        | limit + 1, s =>
          if s.atBreak then pass limit s.skipLine
          else if s.head?.any isBlank then pass limit s.skip
          else s
      moreComments limit (pass blank.length s).skipToLineEnd
    else s

/-- Pass over what stands between tokens. In a block, a new line allows a key. -/
def toNextToken : (limit : Nat) → Lexer → Lexer
  | 0, s => s
  | limit + 1, s =>
    let src := s.source
    let src := if src.column = 0 && src.head? = some (Char.ofNat 0xfeff) then src.skip else src
    let tabs := s.flow > 0 || !s.keyAllowed
    let src := src.skipWhile fun c => c = ' ' || (tabs && c = '\t')
    let src := if src.head? = some '#' then moreComments src.rest.length src.skipToLineEnd else src
    if src.atBreak then
      toNextToken limit { s with
        source := src.skipLine
        keyAllowed := s.keyAllowed || s.flow = 0 }
    else { s with source := src }

/-- Pass over a comment behind a token. -/
def afterToken (s : Lexer) : Lexer :=
  let src := s.source.skipBlanks
  if !s.source.fresh && src.head? = some '#' then { s with source := src.skipToLineEnd } else s

/-- Emit a token made of the next `n` characters. -/
def mark (k : Token.Kind) (n : Nat) (s : Lexer) : Lexer :=
  { s.push k s.source.line with source := s.source.skipMany n }

def streamEnd (s : Lexer) : Option Lexer := do
  let s ← (s.unrollIndent none).removeKey
  return { s with keyAllowed := false }.push .streamEnd s.source.line

def documentIndicator (k : Token.Kind) (s : Lexer) : Option Lexer := do
  let s ← (s.unrollIndent none).removeKey
  return { s with keyAllowed := false }.mark k 3

def flowStart (k : Token.Kind) (s : Lexer) : Option Lexer := do
  let s ← s.saveKey
  return { s with keys := none :: s.keys, flow := s.flow + 1, keyAllowed := true }.mark k 1

def flowEnd (k : Token.Kind) (s : Lexer) : Option Lexer := do
  let s ← s.removeKey
  let s := if s.flow = 0 then s else { s with keys := s.keys.tail, flow := s.flow - 1 }
  return { s with keyAllowed := false }.mark k 1

def flowEntry (s : Lexer) : Option Lexer := do
  let s ← s.removeKey
  return { s with keyAllowed := true }.mark .flowEntry 1

/-- Open a block for an entry or a key at the current column, where one is allowed. -/
def openBlock (k : Token.Kind) (s : Lexer) : Option Lexer :=
  if s.flow ≠ 0 then some s
  else if s.keyAllowed then
    some (s.rollIndent s.source.column s.tokens.size k s.source.line)
  else none

def blockEntry (s : Lexer) : Option Lexer := do
  let s ← (← s.openBlock .blockSequenceStart).removeKey
  return { s with keyAllowed := true }.mark .blockEntry 1

def explicitKey (s : Lexer) : Option Lexer := do
  let s ← (← s.openBlock .blockMappingStart).removeKey
  return { s with keyAllowed := s.flow = 0 }.mark .key 1

/-- A colon. What came before it is the key if it can be one. -/
def value (s : Lexer) : Option Lexer := do
  match s.keys.head?.join with
  | some k =>
    if s.stillKey k then
      let s := (s.insert k.token .key k.line).rollIndent k.column k.token .blockMappingStart k.line
      return { s.setKey none with keyAllowed := false }.mark .value 1
    else if k.required then none
    else complexValue (s.setKey none)
  | none => complexValue s
where
  complexValue (s : Lexer) : Option Lexer := do
    let s ← s.openBlock .blockMappingStart
    return { s with keyAllowed := s.flow = 0 }.mark .value 1

/-- The name behind `&` or `*`. -/
def name (make : String → Token.Kind) (s : Lexer) : Option Lexer := do
  let s ← s.saveKey
  let word := s.source.rest.tail.takeWhile isWord
  let next := s.source.skipMany (word.length + 1)
  let ended := next.blankAt 0 ||
    next.head?.any fun c => ['?', ':', ',', ']', '\x7d', '%', '@', Char.ofNat 96].contains c
  if word.isEmpty || !ended then none
  else return { s.push (make (String.ofList word)) s.source.line with
    source := next, keyAllowed := false }

def isUriChar (c : Char) : Bool :=
  isWord c || [';', '/', '?', ':', '@', '&', '=', '+', '$', ',', '.', '!', '~', '*', '(', ')', '[',
    ']', '%'].contains c || c.toNat = 39

/-- The characters of a tag, with their escapes resolved. -/
def uriText : (limit : Nat) → List Char → Option (List UInt8)
  | _, [] => some []
  | 0, _ => none
  | limit + 1, '%' :: a :: b :: rest => do
    let v := (← hexValue? a) * 16 + (← hexValue? b)
    return v.toUInt8 :: (← uriText limit rest)
  | limit + 1, c :: rest => do
    if c = '%' then none
    else return (String.singleton c).toUTF8.data.toList ++ (← uriText limit rest)

def uri? (cs : List Char) : Option String := do
  String.fromUTF8? ⟨(← uriText cs.length cs).toArray⟩

/-- The handle and suffix of a tag, and the text behind it. -/
def tagParts (s : Source) : Option (String × String × Source) :=
  match s.rest with
  | '!' :: '<' :: rest => do
    let cs := rest.takeWhile isUriChar
    let next := s.skipMany (2 + cs.length)
    if cs.isEmpty || next.head? ≠ some '>' then none
    else return ("", ← uri? cs, next.skip)
  | '!' :: rest =>
    let word := rest.takeWhile isWord
    if (rest.drop word.length).head? = some '!' then do
      let cs := (rest.drop (word.length + 1)).takeWhile isUriChar
      if cs.isEmpty then none
      else
        let next := s.skipMany (word.length + 2 + cs.length)
        return ("!" ++ String.ofList word ++ "!", ← uri? cs, next)
    else do
      let cs := rest.takeWhile isUriChar
      let next := s.skipMany (1 + cs.length)
      if cs.isEmpty then return ("", "!", next)
      else return ("!", ← uri? cs, next)
  | _ => none

def tag (s : Lexer) : Option Lexer := do
  let s ← s.saveKey
  let (handle, suffix, next) ← tagParts s.source
  if next.blankAt 0 then
    return { s.push (.tag handle suffix) s.source.line with source := next, keyAllowed := false }
  else none

def blockText (literal : Bool) (s : Lexer) : Option Lexer := do
  let s ← s.removeKey
  let (text, next) ← blockScalar literal s.indents.head? s.source.skip
  return { s.push (.scalar (String.ofList text) .block) s.source.line with
    source := next, keyAllowed := true }

def quotedText (quote : Char) (s : Lexer) : Option Lexer := do
  let s ← s.saveKey
  let body := s.source.skip
  let (text, next) ← quotedScalar (quote = '"') quote (body.rest.length + 1) [] body
  return { s.push (.scalar (String.ofList text) .quoted) s.source.line with
    source := next, keyAllowed := false }

def plainText (s : Lexer) : Option Lexer := do
  let s ← s.saveKey
  let indent := match s.indents.head? with | some n => n + 1 | none => 0
  let (text, broken, next) ←
    plainScalar (s.flow > 0) indent (s.source.rest.length + 1) [] {} s.source
  return { s.push (.scalar (String.ofList text) .plain) s.source.line with
    source := next, keyAllowed := broken }

/-- Digits of a version number. -/
def number? (cs : List Char) : Option Nat :=
  if cs.isEmpty || 9 < cs.length then none
  else some (cs.foldl (fun n c => n * 10 + (c.toNat - '0'.toNat)) 0)

/-- The content of a directive. -/
def directiveParts (s : Source) : Option (Token.Kind × Source) :=
  let word := s.rest.takeWhile isWord
  let next := s.skipMany word.length
  if !next.blankAt 0 then none
  else if word = "YAML".toList then do
    let s := next.skipBlanks
    let major := s.rest.takeWhile Char.isDigit
    let s := s.skipMany major.length
    if s.head? ≠ some '.' then none
    else
      let minor := s.skip.rest.takeWhile Char.isDigit
      return (.version (← number? major) (← number? minor), s.skip.skipMany minor.length)
  else if word = "TAG".toList then do
    let s := next.skipBlanks
    if s.head? ≠ some '!' then none
    else
      let inner := s.rest.tail.takeWhile isWord
      let closed := (s.rest.drop (inner.length + 1)).head? = some '!'
      if !closed && !inner.isEmpty then none
      else
        let handle := "!" ++ String.ofList inner ++ (if closed then "!" else "")
        let s := s.skipMany handle.length
        if !s.head?.any isBlank then none
        else
          let s := s.skipBlanks
          let cs := s.rest.takeWhile isUriChar
          let s := s.skipMany cs.length
          if cs.isEmpty || !s.blankAt 0 then none
          else return (.tagDirective handle (← uri? cs), s)
  else none

def directive (s : Lexer) : Option Lexer := do
  let s ← (s.unrollIndent none).removeKey
  let (k, next) ← directiveParts s.source.skip
  let next := next.skipBlanks
  let next := if next.head? = some '#' then next.skipToLineEnd else next
  if !next.atLineEnd then none
  else return { s.push k s.source.line with
    source := if next.atBreak then next.skipLine else next, keyAllowed := false }

/-- A character that no plain scalar starts with. -/
def isIndicator (c : Char) : Bool :=
  ['-', '?', ':', ',', '[', ']', '\x7b', '\x7d', '#', '&', '*', '!', '|', '>', '"', '%',
    '@'].contains c || c.toNat = 39 || c.toNat = 96

/-- The token at the current place. -/
def tokenHere (s : Lexer) : Option Lexer :=
  let src := s.source
  match src.rest with
  | [] => s.streamEnd
  | c :: rest =>
    if src.column = 0 && c = '%' then s.directive
    else if src.atIndicator '-' then s.documentIndicator .documentStart
    else if src.atIndicator '.' then s.documentIndicator .documentEnd
    else if c = '[' then s.flowStart .flowSequenceStart
    else if c = '\x7b' then s.flowStart .flowMappingStart
    else if c = ']' then s.flowEnd .flowSequenceEnd
    else if c = '\x7d' then s.flowEnd .flowMappingEnd
    else if c = ',' then s.flowEntry
    else if c = '-' && src.blankAt 1 then s.blockEntry
    else if c = '?' && (s.flow > 0 || src.blankAt 1) then s.explicitKey
    else if c = ':' && (s.flow > 0 || src.blankAt 1) then s.value
    else if c = '*' then s.name .reference
    else if c = '&' then s.name .anchor
    else if c = '!' then s.tag
    else if c = '|' && s.flow = 0 then s.blockText true
    else if c = '>' && s.flow = 0 then s.blockText false
    else if c = '"' || c.toNat = 39 then s.quotedText c
    else if (!isIndicator c && !src.blankAt 0) || (c = '-' && !rest.head?.any isBlank) ||
        (s.flow = 0 && (c = '?' || c = ':') && !src.blankAt 1) then s.plainText
    else none

/-- Fetch the next token with all that belongs to it. -/
def fetch (s : Lexer) : Option Lexer := do
  let s := s.toNextToken (s.source.rest.length + 1)
  let s ← (s.unrollIndent (some s.source.column)).tokenHere
  match s.tokens.back? with
  | some { kind := .blockEntry, .. } => return s
  | _ => return s.afterToken

/-- The number of the first token that is out of reach when the text cannot be cut further. -/
def reach (s : Lexer) : Nat :=
  let undecided := s.keys.filterMap fun k => k.bind fun k =>
    if k.required || s.stillKey k then some k.token else none
  undecided.foldl min (s.tokens.size - 2)

/-- Fetch tokens until the text ends or cannot be cut further. -/
def fetchAll : (limit : Nat) → Lexer → List Token
  | 0, s => s.tokens.toList
  | limit + 1, s =>
    match s.fetch with
    | none => s.tokens.toList.take s.reach ++ [{ kind := .broken, line := s.source.line }]
    | some s' =>
      if s'.tokens.back?.any (·.kind = .streamEnd) then s'.tokens.toList else fetchAll limit s'

end Lexer

/-- The tokens of a text. Every token takes up at least one character. A mark of the byte order at
the start does not count. -/
def tokens (text : String) : List Token :=
  let cs := text.toList
  let cs := if cs.head? = some (Char.ofNat 0xfeff) then cs.tail else cs
  if cs.all isAllowed then Lexer.fetchAll (cs.length + 1) { source := { rest := cs } }
  else [{ kind := .broken, line := 0 }]

end GuestThreads.Yaml
