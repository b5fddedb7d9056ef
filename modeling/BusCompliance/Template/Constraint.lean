import BusCompliance.Field
import BusCompliance.Text.Dotted

/-!
# Value constraints

A value that a field may have: an exact text, or a range of numbers.
-/

namespace BusCompliance

inductive Constraint
  | exact (text : String)
  | range (low high : FloatType.f64.Bits)
  | atLeast (n : FloatType.f64.Bits)
  | atMost (n : FloatType.f64.Bits)
deriving DecidableEq, Repr

namespace Constraint

/-- The number that a text with blanks around it spells. -/
def number? (cs : List Char) : Option FloatType.f64.Bits := FloatType.f64.read? (Text.trimChars cs)

/-- Two numbers with two dots between them. -/
def range? (cs : List Char) : Option Constraint := do
  let (low, high) ← Text.splitMark "..".toList cs
  return .range (← number? low) (← number? high)

/-- A number with a sign behind it. -/
def bound? (cs : List Char) : Option Constraint :=
  match cs.getLast? with
  | some '+' => (number? cs.dropLast).map .atLeast
  | some '-' => (number? cs.dropLast).map .atMost
  | _ => none

/-- The constraint of a text. Whatever is neither a range nor a bound is an exact text. -/
def ofText (text : String) : Constraint :=
  let cs := Text.trimChars text.toList
  (range? cs <|> bound? cs).getD (.exact (String.ofList cs))

def text : Constraint → String
  | .exact s => s
  | .range low high => s!"{FloatType.f64.text low}..{FloatType.f64.text high}"
  | .atLeast n => s!"{FloatType.f64.text n}+"
  | .atMost n => s!"{FloatType.f64.text n}-"

/-- The number of a value meets a condition. -/
def holds (value : Value) (condition : FloatType.f64.Bits → Bool) : Bool :=
  match value.toDouble with
  | .ok x => condition x
  | .error _ => false

/-- Exact texts are compared with the text of the value, ranges with its number. -/
def allows (c : Constraint) (value : Value) : Bool :=
  match c with
  | .exact s => value.text == s
  | .range low high =>
    holds value fun x => FloatType.f64.atMost low x && FloatType.f64.atMost x high
  | .atLeast n => holds value fun x => FloatType.f64.atMost n x
  | .atMost n => holds value fun x => FloatType.f64.atMost x n

end Constraint

end BusCompliance
