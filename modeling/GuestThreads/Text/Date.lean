/-!
# Points in time

Dates of the form year, month, day, alone or with a time of day. Months, days, hours, minutes and
seconds have one or two digits.
-/

namespace GuestThreads.Text.Date

def isLeapYear (year : Nat) : Bool := year % 4 = 0 && (year % 100 ≠ 0 || year % 400 = 0)

def daysInMonth (year month : Nat) : Nat :=
  if month = 2 then if isLeapYear year then 29 else 28
  else if [4, 6, 9, 11].contains month then 30
  else 31

/-- A number of one or two digits that lies in a range. -/
def number? (low high : Nat) (cs : List Char) : Option (Nat × List Char) :=
  let digits := (cs.take 2).takeWhile Char.isDigit
  let n := digits.foldl (fun n c => n * 10 + (c.toNat - '0'.toNat)) 0
  if digits.isEmpty || n < low || high < n then none else some (n, cs.drop digits.length)

def expect (c : Char) : List Char → Option (List Char)
  | [] => none
  | d :: rest => if c = d then some rest else none

/-- A date, and the characters behind it. The year has four digits. -/
def day? (cs : List Char) : Option (List Char) := do
  let year := cs.takeWhile Char.isDigit
  if year.length ≠ 4 then none
  let (month, rest) ← number? 1 12 (← expect '-' (cs.drop 4))
  let y := year.foldl (fun n c => n * 10 + (c.toNat - '0'.toNat)) 0
  let (_, rest) ← number? 1 (daysInMonth y month) (← expect '-' rest)
  return rest

/-- A time of day with an optional fraction of a second. -/
def time? (cs : List Char) : Option (List Char) := do
  let (_, rest) ← number? 0 23 cs
  let (_, rest) ← number? 0 59 (← expect ':' rest)
  let (_, rest) ← number? 0 59 (← expect ':' rest)
  match rest with
  | c :: d :: more =>
    if (c = '.' || c = ',') && d.isDigit then return more.dropWhile Char.isDigit else return rest
  | _ => return rest

/-- A time zone: `Z`, or an offset in hours and minutes of two digits each. -/
def zone? : List Char → Option (List Char)
  | 'Z' :: rest => some rest
  | s :: a :: b :: ':' :: c :: d :: rest => do
    if s ≠ '+' && s ≠ '-' then none
    if [a, b, c, d].any (!·.isDigit) then none
    let _ ← number? 0 24 [a, b]
    let _ ← number? 0 60 [c, d]
    return rest
  | _ => none

/-- Whether a text is a date, a date and a time divided by blanks, or a date, a time and a zone
divided by a letter. -/
def isInstant (cs : List Char) : Bool :=
  match day? cs with
  | none => false
  | some [] => true
  | some (c :: rest) =>
    if c = 'T' || c = 't' then (time? rest).bind zone? = some []
    else if c = ' ' then time? (rest.dropWhile (· = ' ')) = some []
    else false

end GuestThreads.Text.Date
