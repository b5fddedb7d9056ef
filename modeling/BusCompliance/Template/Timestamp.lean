import BusCompliance.Number.Natural
import BusCompliance.Text.Dotted

/-!
# Timestamps

A year, a day of the year and a clock time joined by hyphens. After a sign the year may be left out,
and the day with it, and days count from zero.
-/

namespace BusCompliance.Timestamp

/-- The number of a run of digits whose length lies between the two bounds. -/
def digits? (least greatest : Nat) (cs : List Char) : Option Nat :=
  if least ≤ cs.length ∧ cs.length ≤ greatest then Natural.ofDigits? cs else none

/-- Hours, minutes and seconds; a leap second is allowed for. -/
def isTimeOfDay (hour minute second : Nat) : Bool := hour ≤ 23 && minute ≤ 59 && second ≤ 60

/-- One to nine digits after the point, if there is one. -/
def isFraction : Option (List Char) → Bool
  | none => true
  | some cs => (digits? 1 9 cs).isSome

/-- A clock time; unless it is `full`, hours and then minutes may be left out. -/
def isClock (full : Bool) (cs : List Char) : Bool :=
  let (clock, fraction) :=
    match Text.splitFirst '.' cs with
    | some (clock, fraction) => (clock, some fraction)
    | none => (cs, none)
  isFraction fraction &&
    match (clock.splitOn ':').mapM (digits? 1 2) with
    | some [hour, minute, second] => isTimeOfDay hour minute second
    | some [minute, second] => !full && isTimeOfDay 0 minute second
    | some [second] => !full && isTimeOfDay 0 0 second
    | _ => false

def isLeapYear (year : Nat) : Bool := (year % 4 == 0 && year % 100 != 0) || year % 400 == 0

def isDay (first year day : Nat) : Bool :=
  first ≤ day && day ≤ if isLeapYear year then 366 else 365

/-- The parts between the hyphens. A day without a year is counted as in a leap year. -/
def isDated (signed : Bool) (parts : List (List Char)) : Bool :=
  let first := if signed then 0 else 1
  match parts with
  | [clock] => signed && isClock false clock
  | [day, clock] =>
    signed && isClock true clock && (digits? 1 3 day).any (isDay first 0)
  | [year, day, clock] =>
    isClock true clock &&
      match digits? 4 4 year, digits? 3 3 day with
      | some year, some day => isDay first year day
      | _, _ => false
  | _ => false

def isTimestamp (text : String) : Bool :=
  match text.toList with
  | [] => false
  | c :: r =>
    if c = '+' ∨ c = '-' then isDated true (r.splitOn '-')
    else isDigit c && isDated false ((c :: r).splitOn '-')

end BusCompliance.Timestamp
