import BusCompliance.Number.Natural

/-!
# Dates and times in TOML

Which texts are a date, a time of day, or both with an offset from universal time. No setting is a
moment, so nothing but the form is kept of it.
-/

namespace BusCompliance.Toml.Moment

/-- The number of two digits at the start of the text, and what follows. -/
def twoDigits? : List Char → Option (Nat × List Char)
  | a :: b :: r => (Natural.ofDigits? [a, b]).map fun n => (n, r)
  | _ => none

/-- Two digits of a number in a range, and what follows. -/
def part? (low high : Nat) (cs : List Char) : Option (Nat × List Char) :=
  (twoDigits? cs).bind fun (n, r) => if low ≤ n ∧ n ≤ high then some (n, r) else none

def expect? (c : Char) : List Char → Option (List Char)
  | x :: r => if x = c then some r else none
  | [] => none

def isLeapYear (year : Nat) : Bool := year % 4 = 0 && (year % 100 ≠ 0 || year % 400 = 0)

def daysIn (year month : Nat) : Nat :=
  if month = 2 then if isLeapYear year then 29 else 28
  else if month ∈ [4, 6, 9, 11] then 30
  else 31

/-- What follows a date: four digits of the year, two of the month and two of the day. -/
def dropDate? (cs : List Char) : Option (List Char) := do
  let (century, cs) ← twoDigits? cs
  let (rest, cs) ← twoDigits? cs
  let (month, cs) ← part? 1 12 (← expect? '-' cs)
  let (_, cs) ← part? 1 (daysIn (100 * century + rest) month) (← expect? '-' cs)
  return cs

/-- What follows a fraction of a second, if there is one. -/
def dropFraction? : List Char → Option (List Char)
  | '.' :: r => if (r.head?.map isDigit).getD false then some (r.dropWhile isDigit) else none
  | cs => some cs

/-- What follows a time of day. A minute may have a second more. -/
def dropTime? (cs : List Char) : Option (List Char) := do
  let (_, cs) ← part? 0 23 cs
  let (_, cs) ← part? 0 59 (← expect? ':' cs)
  let (_, cs) ← part? 0 60 (← expect? ':' cs)
  dropFraction? cs

/-- The text is an offset, or empty. -/
def isOffset : List Char → Bool
  | [] | ['Z'] | ['z'] => true
  | c :: r =>
    (c = '+' || c = '-') &&
      match part? 0 23 r with
      | some (_, ':' :: r) => (part? 0 59 r).map (·.2) == some []
      | _ => false

def isDate (cs : List Char) : Bool := dropDate? cs == some []

/-- The text is a date, a time, or both. Only both together may have an offset. -/
def isMoment (cs : List Char) : Bool :=
  match dropDate? cs with
  | some [] => true
  | some (c :: r) =>
    (c = 'T' || c = 't' || c = ' ') && ((dropTime? r).map isOffset).getD false
  | none => dropTime? cs == some []

end BusCompliance.Toml.Moment
