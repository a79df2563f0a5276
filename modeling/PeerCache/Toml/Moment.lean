import PeerCache.Toml.Number

/-!
Dates and times of TOML: a date, a time of day, or a date followed by a time and perhaps an offset
from universal time. They are checked against the calendar and the clock, not computed with.
-/

namespace PeerCache.Toml

/-- A number of exactly `n` digits within bounds. -/
def fixedDigits (n lo hi : Nat) : Reader Nat := fun cs =>
  let ds := cs.take n
  let value := digitsValue 10 ds
  if ds.length = n ∧ ds.all isDigit ∧ lo ≤ value ∧ value ≤ hi then some (value, cs.drop n)
  else none

/-- One given character. -/
def mark (expected : Char) (cs : List Char) : Option (List Char) :=
  match cs with
  | c :: rest => if c = expected then some rest else none
  | [] => none

def isLeapYear (year : Nat) : Bool :=
  year % 4 = 0 && (year % 100 ≠ 0 || year % 400 = 0)

def daysInMonth (year month : Nat) : Nat :=
  if month = 2 then if isLeapYear year then 29 else 28
  else if month = 4 ∨ month = 6 ∨ month = 9 ∨ month = 11 then 30
  else 31

/-- What follows a date. -/
def date? (cs : List Char) : Option (List Char) := do
  let (year, cs) ← fixedDigits 4 0 9999 cs
  let cs ← mark '-' cs
  let (month, cs) ← fixedDigits 2 1 12 cs
  let cs ← mark '-' cs
  let (_, cs) ← fixedDigits 2 1 (daysInMonth year month) cs
  return cs

/-- What follows a fraction of a second, if one comes next. -/
def skipFraction : List Char → List Char
  | '.' :: d :: rest => if isDigit d then rest.dropWhile isDigit else '.' :: d :: rest
  | cs => cs

/-- What follows a time of day. A leap second is a second of its minute. -/
def time? (cs : List Char) : Option (List Char) := do
  let (_, cs) ← fixedDigits 2 0 23 cs
  let cs ← mark ':' cs
  let (_, cs) ← fixedDigits 2 0 59 cs
  let cs ← mark ':' cs
  let (_, cs) ← fixedDigits 2 0 60 cs
  return skipFraction cs

/-- What follows hours and minutes behind the sign of an offset. -/
def offsetClock? (cs : List Char) : Option (List Char) := do
  let (_, cs) ← fixedDigits 2 0 23 cs
  let cs ← mark ':' cs
  let (_, cs) ← fixedDigits 2 0 59 cs
  return cs

/-- What follows an offset from universal time, if one comes next. -/
def skipOffset (cs : List Char) : List Char :=
  match cs with
  | 'Z' :: rest => rest
  | 'z' :: rest => rest
  | '+' :: rest => (offsetClock? rest).getD cs
  | '-' :: rest => (offsetClock? rest).getD cs
  | _ => cs

/-- What follows a time and an offset behind a date, if they come next. -/
def skipTimeOfDate (cs : List Char) : List Char :=
  match cs with
  | c :: rest =>
    if c = 'T' ∨ c = 't' ∨ c = ' ' then ((time? rest).map skipOffset).getD cs else cs
  | [] => []

/-- A date, a time of day, or both. -/
def moment : Reader Node := fun cs =>
  (((date? cs).map skipTimeOfDate).or (time? cs)).map fun rest => (.moment, rest)

end PeerCache.Toml
