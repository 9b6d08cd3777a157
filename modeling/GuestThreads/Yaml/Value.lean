import GuestThreads.Text.Base64
import GuestThreads.Text.Date
import GuestThreads.Text.Decimal

/-!
# Scalar values

What the text of a scalar stands for. A plain scalar gets its tag from its text; a tag that is given
must fit the text.
-/

namespace GuestThreads.Yaml

inductive Value where
  | null
  | bool (b : Bool)
  | int (n : Int)
  /-- A number with a fraction or an exponent, by its whole part. Infinite numbers, and what is not
  a number, have none. -/
  | real (whole : Option Int)
  | text (s : String)
  | instant
deriving DecidableEq, Repr

def standardTags : String := "tag:yaml.org,2002:"

/-- A standard tag is written with two exclamation marks. -/
def shortTag (tag : String) : String :=
  if standardTags.isPrefixOf tag then "!!" ++ (tag.drop standardTags.length).toString else tag

/-- The spellings of values that are words. -/
def words : List (String × String × Value) :=
  let each (tag : String) (v : Value) (names : List String) := names.map fun n => (n, tag, v)
  each "!!bool" (.bool true) ["true", "True", "TRUE"] ++
    each "!!bool" (.bool false) ["false", "False", "FALSE"] ++
    each "!!null" .null ["", "~", "null", "Null", "NULL"] ++
    each "!!float" (.real none) [".nan", ".NaN", ".NAN", ".inf", ".Inf", ".INF", "+.inf", "+.Inf",
      "+.INF", "-.inf", "-.Inf", "-.INF"]

/-- An integer of 64 bits, with or without a sign. -/
def integer? (cs : List Char) : Option Int :=
  match Text.parseSigned cs with
  | .ok v => some v
  | .error _ =>
    match Text.parseUnsigned Text.maxWord64 cs with
    | .ok v => some v
    | .error _ => none

/-- An integer whose sign stands behind the mark of its base. -/
def markedInteger? (cs : List Char) : Option Int :=
  let inBase (base : Nat) (digits : List Char) (limit : Nat) : Option Int :=
    if digits.isEmpty then none
    else (Text.digitsValue base limit 0 digits).toOption.map Int.ofNat
  let base? (m : Char) : Option Nat := if m = 'b' then some 2 else if m = 'o' then some 8 else none
  match cs with
  | '0' :: m :: '-' :: digits => do
    let v ← inBase (← base? m) digits (Text.maxInt64 + 1)
    return -v
  | '0' :: m :: '+' :: digits => do inBase (← base? m) digits Text.maxInt64
  | _ => none

/-- A number, with its tag. Underscores in it do not count. -/
def number? (cs : List Char) : Option (String × Value) :=
  let plain := cs.filter (· ≠ '_')
  match integer? plain with
  | some n => some ("!!int", .int n)
  | none =>
    match (Text.Decimal.read? plain).bind Text.Decimal.whole? with
    | some whole => some ("!!float", .real (some whole))
    | none => (markedInteger? plain).map fun n => ("!!int", .int n)

/-- The tag and value of a text by itself. Points in time are recognised only on request. -/
def interpret (instants : Bool) (text : String) : String × Value :=
  match words.lookup text with
  | some found => found
  | none =>
    let cs := text.toList
    let found : Option (String × Value) := match cs with
      | '.' :: _ => do
        let whole ← (← Text.Decimal.read? cs).whole?
        return ("!!float", .real (some whole))
      | c :: _ =>
        if c.isDigit || c = '+' || c = '-' then
          if instants && Text.Date.isInstant cs then some ("!!timestamp", .instant) else number? cs
        else none
      | [] => none
    found.getD ("!!str", .text text)

/-- The tag of a plain scalar. -/
def resolvedTag (text : String) : String := (interpret true text).1

/-- The value of a scalar with the given tag. Fails if the text does not fit the tag. -/
def Value.ofScalar? (tag text : String) : Option Value :=
  if tag = "!!str" then some (.text text)
  else if tag = "!!binary" then (Text.Base64.decode? text.toList).map fun b => .text b.toText
  else if ["!!bool", "!!int", "!!float", "!!null", "!!timestamp"].contains tag then
    match interpret (tag = "!!timestamp") text with
    | (found, v) =>
      if found = tag then some v
      else
        match tag, v with
        | "!!float", .int n => if n ≤ Text.maxInt64 then some (.real (some n)) else none
        | _, _ => none
  else some (.text text)

end GuestThreads.Yaml
