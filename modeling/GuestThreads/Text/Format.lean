import GuestThreads.Bytes
import GuestThreads.Text.Quoted

/-!
# Message templates

A template holds verbs that are replaced by its arguments in order: `%d` a number, `%s` and `%v` a
plain value, `%q` a quoted text, `%x` digits in base sixteen, with `#` before the letter their mark,
and `%%` a percent sign. What does not fit is reported in the text itself.
-/

namespace GuestThreads.Text

inductive Arg where
  | int (v : Int)
  | text (s : String)
  | flag (b : Bool)
deriving DecidableEq, Repr

namespace Arg

def plain : Arg → String
  | .int v => signedDecimal v
  | .text s => s
  | .flag b => if b then "true" else "false"

/-- The name of an argument's type in a report of a mismatch. -/
def typeName : Arg → String
  | .int _ => "int64"
  | .text _ => "string"
  | .flag _ => "bool"

/-- A value that does not suit its verb. -/
def mismatch (verb : Char) (a : Arg) : String :=
  "%!" ++ String.singleton verb ++ "(" ++ a.typeName ++ "=" ++ a.plain ++ ")"

def hexInt (mark : Bool) (v : Int) : String :=
  (if v < 0 then "-" else "") ++ (if mark then "0x" else "") ++ hexDigits v.natAbs

def hexText (mark : Bool) (s : String) : String :=
  let bytes := Bytes.ofString s
  if bytes.isEmpty then ""
  else (if mark then "0x" else "") ++
    String.join (bytes.map fun b => padLeft 2 '0' (hexDigits b.toNat))

/-- The character with this code between single quotes. -/
def quotedCode (v : Int) : String :=
  let n := v.toNat
  let c := if v < 0 ∨ ¬n.isValidChar then Char.ofNat 0xfffd else Char.ofNat n
  "'" ++ (if c.toNat = 39 then "\\'" else if c.toNat = 34 then "\"" else quotedChar c) ++ "'"

def render (mark : Bool) (verb : Char) (a : Arg) : String :=
  match verb, a with
  | 'v', _ => a.plain
  | 'd', .int _ => a.plain
  | 's', .text s => s
  | 'q', .text s => quoted s
  | 'q', .int v => quotedCode v
  | 'x', .int v => hexInt mark v
  | 'x', .text s => hexText mark s
  | 't', .flag _ => a.plain
  | _, _ => a.mismatch verb

end Arg

/-- Replace the verbs of a template by the arguments. -/
def fill : (template : List Char) → List Arg → String
  | [], [] => ""
  | [], args =>
    "%!(EXTRA " ++ String.intercalate ", " (args.map fun a => a.typeName ++ "=" ++ a.plain) ++ ")"
  | '%' :: '%' :: rest, args => "%" ++ fill rest args
  | '%' :: '#' :: verb :: rest, a :: args => a.render true verb ++ fill rest args
  | '%' :: '#' :: verb :: rest, [] => "%!" ++ String.singleton verb ++ "(MISSING)" ++ fill rest []
  | ['%'], args => "%!(NOVERB)" ++ fill [] args
  | '%' :: verb :: rest, a :: args => a.render false verb ++ fill rest args
  | '%' :: verb :: rest, [] => "%!" ++ String.singleton verb ++ "(MISSING)" ++ fill rest []
  | c :: rest, args => String.singleton c ++ fill rest args

end GuestThreads.Text
