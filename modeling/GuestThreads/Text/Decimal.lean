import GuestThreads.Text.Literal

/-!
# Decimal fractions

Numbers with a point or an exponent, rounded to the nearest number of 53 significant bits, a tie to
the even neighbour. Numbers of 2^1024 and more are out of range.
-/

namespace GuestThreads.Text

/-- The number `coefficient * 10 ^ exponent`, possibly below zero. -/
structure Decimal where
  negative : Bool
  coefficient : Nat
  exponent : Int
deriving DecidableEq, Repr

namespace Decimal

def ofDigits (cs : List Char) : Nat := cs.foldl (fun n c => n * 10 + (c.toNat - '0'.toNat)) 0

/-- An exponent with its letter, or nothing. -/
def readExponent? : List Char → Option Int
  | [] => some 0
  | c :: rest =>
    let (negative, digits) := match rest with
      | '-' :: ds => (true, ds)
      | '+' :: ds => (false, ds)
      | ds => (false, ds)
    if (c = 'e' || c = 'E') && !digits.isEmpty && digits.all Char.isDigit then
      some (if negative then -(ofDigits digits : Int) else ofDigits digits)
    else none

/-- The number that a text spells: an optional sign, digits with an optional point among, before or
behind them, and an optional exponent. -/
def read? (cs : List Char) : Option Decimal := do
  let (negative, cs) := match cs with
    | '-' :: rest => (true, rest)
    | '+' :: rest => (false, rest)
    | _ => (false, cs)
  let whole := cs.takeWhile Char.isDigit
  let rest := cs.drop whole.length
  let fraction := match rest with
    | '.' :: ds => ds.takeWhile Char.isDigit
    | _ => []
  let rest := match rest with
    | '.' :: ds => ds.drop fraction.length
    | _ => rest
  if whole.isEmpty && fraction.isEmpty then none
  else
    return {
      negative := negative
      coefficient := ofDigits (whole ++ fraction)
      exponent := (← readExponent? rest) - fraction.length }

/-- The quotient rounded to the nearest integer, a tie to the even one. -/
def roundDiv (num den : Nat) : Nat :=
  let q := num / den
  let r := num % den
  if 2 * r < den || (2 * r = den && q % 2 = 0) then q else q + 1

/-- The whole part of `num / den` after rounding to 53 significant bits, or none out of range. -/
def roundedWhole? (num den : Nat) : Option Nat :=
  if num = 0 then some 0
  else
    -- The quotient lies between 2 ^ (scale + 52) and 2 ^ (scale + 54).
    let scale : Int := (num.log2 : Int) - den.log2 - 53
    let scaled (k : Int) : Nat := roundDiv (num <<< (-k).toNat) (den <<< k.toNat)
    let k : Int :=
      if den <<< (scale.toNat + 53) ≤ num <<< (-scale).toNat then scale + 1 else scale
    let k := max k (-1074)
    let whole := (scaled k <<< k.toNat) >>> (-k).toNat
    if 1 <<< 1024 ≤ whole then none else some whole

def tenTo (n : Nat) : Nat := Nat.pow 10 n

/-- The whole part after rounding, or none out of range. -/
def whole? (d : Decimal) : Option Int := do
  let size : Int := (Nat.toDigits 10 d.coefficient).length + d.exponent
  let magnitude ←
    if d.coefficient = 0 || size < -400 then some 0
    else if 400 < size then none
    else roundedWhole? (d.coefficient * tenTo d.exponent.toNat) (tenTo (-d.exponent).toNat)
  return if d.negative then -magnitude else magnitude

end Decimal

end GuestThreads.Text
