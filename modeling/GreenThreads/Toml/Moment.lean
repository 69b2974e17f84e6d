import GreenThreads.Toml.Number

/-!
# TOML dates and times

A moment is a date, a time of day, or both with an optional offset. Only whether one is well formed
matters here: the days of the months and leap years are checked, and seconds up to 60.
-/

namespace GreenThreads.Toml

/-- Reads a number of exactly `count` digits between two bounds. -/
def boundedDigits (count lo hi : Nat) (cs : List Char) : Option (Nat × List Char) :=
  let ds := cs.take count
  let n := number 10 ds
  if ds.length = count ∧ ds.all Char.isDigit ∧ lo ≤ n ∧ n ≤ hi then some (n, cs.drop count)
  else none

/-- Reads one character that has to be there. -/
def exactly (c : Char) : List Char → Option (List Char)
  | d :: rest => if d = c then some rest else none
  | [] => none

/-- Whether a year has a 29th of February. -/
def isLeapYear (y : Nat) : Bool := y % 4 == 0 && (y % 100 != 0 || y % 400 == 0)

/-- The number of days of a month. -/
def daysOfMonth (year month : Nat) : Nat :=
  if month = 2 then (if isLeapYear year then 29 else 28)
  else if month = 4 ∨ month = 6 ∨ month = 9 ∨ month = 11 then 30
  else 31

/-- Reads a date: year, month and day with hyphens between them. -/
def readDate (cs : List Char) : Option (List Char) := do
  let (year, cs) ← boundedDigits 4 0 9999 cs
  let cs ← exactly '-' cs
  let (month, cs) ← boundedDigits 2 1 12 cs
  let cs ← exactly '-' cs
  let (_, cs) ← boundedDigits 2 1 (daysOfMonth year month) cs
  return cs

/-- Reads the digits after the point of a second, if there is one. -/
def skipSecondFraction : List Char → List Char
  | '.' :: c :: rest => if c.isDigit then rest.dropWhile Char.isDigit else '.' :: c :: rest
  | cs => cs

/-- Reads a time of day. -/
def readTime (cs : List Char) : Option (List Char) := do
  let (_, cs) ← boundedDigits 2 0 23 cs
  let cs ← exactly ':' cs
  let (_, cs) ← boundedDigits 2 0 59 cs
  let cs ← exactly ':' cs
  let (_, cs) ← boundedDigits 2 0 60 cs
  return skipSecondFraction cs

/-- Reads an offset: `Z`, or hours and minutes with a sign. -/
def readOffset : List Char → Option (List Char)
  | c :: rest =>
    if c == 'Z' || c == 'z' then some rest
    else if c == '+' || c == '-' then do
      let (_, cs) ← boundedDigits 2 0 23 rest
      let cs ← exactly ':' cs
      let (_, cs) ← boundedDigits 2 0 59 cs
      return cs
    else none
  | [] => none

/-- Reads what follows a date: a time with an optional offset, or nothing. -/
def skipTimeOfDate (cs : List Char) : List Char :=
  match cs with
  | c :: rest =>
    if c == 'T' || c == 't' || c == ' ' then
      match readTime rest with
      | some after => (readOffset after).getD after
      | none => cs
    else cs
  | [] => []

/-- Reads a moment. -/
def readMoment (cs : List Char) : Option (List Char) :=
  (readDate cs).map skipTimeOfDate <|> readTime cs

end GreenThreads.Toml
