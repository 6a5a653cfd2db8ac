import TwoBitAlpha.Toml.Blank

/-!
Dates and times of the proleptic Gregorian calendar. Their parts are checked for range, and only the spelling
is kept.
-/

namespace TwoBitAlpha.Toml

def fixedNumber (places : Nat) (s : List Char) : Option (Nat × List Char) :=
  let digits := s.take places
  if digits.length = places ∧ digits.all Char.isDigit then
    some (digits.foldl (fun n d => n * 10 + (d.toNat - '0'.toNat)) 0, s.drop places)
  else none

def expect (c : Char) : List Char → Option (List Char)
  | [] => none
  | d :: rest => if d = c then some rest else none

def twoDigits (low high : Nat) (s : List Char) : Option (Nat × List Char) := do
  let (n, rest) ← fixedNumber 2 s
  if low ≤ n ∧ n ≤ high then some (n, rest) else none

def isLeapYear (year : Nat) : Bool := year % 4 == 0 && (year % 100 != 0 || year % 400 == 0)

def daysIn (year month : Nat) : Nat :=
  if month = 2 then (if isLeapYear year then 29 else 28)
  else if month = 4 ∨ month = 6 ∨ month = 9 ∨ month = 11 then 30
  else 31

def skipDate (s : List Char) : Option (List Char) := do
  let (year, s) ← fixedNumber 4 s
  let s ← expect '-' s
  let (month, s) ← twoDigits 1 12 s
  let s ← expect '-' s
  let (_, s) ← twoDigits 1 (daysIn year month) s
  some s

def skipSecondFraction : List Char → Option (List Char)
  | '.' :: rest =>
    if (rest.takeWhile Char.isDigit).isEmpty then none else some (rest.dropWhile Char.isDigit)
  | s => some s

/-- What follows a time of day. A minute may have a leap second. -/
def skipTime (s : List Char) : Option (List Char) := do
  let (_, s) ← twoDigits 0 23 s
  let s ← expect ':' s
  let (_, s) ← twoDigits 0 59 s
  let s ← expect ':' s
  let (_, s) ← twoDigits 0 60 s
  skipSecondFraction s

def skipOffset (s : List Char) : Option (List Char) :=
  match s with
  | [] => some []
  | c :: rest =>
    if c = 'Z' ∨ c = 'z' then some rest
    else if c = '+' ∨ c = '-' then do
      let (_, rest) ← twoDigits 0 23 rest
      let rest ← expect ':' rest
      let (_, rest) ← twoDigits 0 59 rest
      some rest
    else some s

/-- What follows a time that belongs to a date; without a time, all that there is. -/
def skipTimeOfDate (s : List Char) : Option (List Char) :=
  match s with
  | [] => some []
  | c :: rest =>
    if c = 'T' ∨ c = 't' ∨ c = ' ' then
      match skipTime rest with
      | some rest => skipOffset rest
      | none => some s
    else some s

/-- A date, a time, or a date with a time, as it is spelled. -/
def moment : Reader String := fun s => do
  let rest ← match skipDate s with
    | some rest => skipTimeOfDate rest
    | none => skipTime s
  some (String.ofList (s.take (s.length - rest.length)), rest)

end TwoBitAlpha.Toml
