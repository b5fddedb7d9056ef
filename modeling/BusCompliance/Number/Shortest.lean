import BusCompliance.Number.FloatType

/-!
# Shortest decimals

The fewest decimal digits that read back to a float, and of those the nearest to its value. A real
reads back if it lies between the halves of the gaps to the two neighbouring values, the ends
included exactly when `m` is even.
-/

namespace BusCompliance

/-- The number digits * 10^exponent. -/
structure Decimal where
  digits : Nat
  exponent : Int
deriving DecidableEq, Repr

/-- Which of two equally near candidates is taken. -/
inductive Tie
  | toEven
  | away
deriving DecidableEq, Repr

namespace Decimal

/-- The order of a * 10^i and n * 2^j. -/
def compareScaled (a : Nat) (i : Int) (n : Nat) (j : Int) : Ordering :=
  compare (a * 10 ^ i.toNat * 2 ^ (-j).toNat) (n * 2 ^ j.toNat * 10 ^ (-i).toNat)

/-- The decimal lies among the reals that round to m * 2^q. -/
def readsBack (m : Nat) (q : Int) (narrow : Bool) (d : Decimal) : Bool :=
  let low := if narrow then 4 * m - 1 else 4 * m - 2
  let high := 4 * m + 2
  let closed := m % 2 == 0
  let below := compareScaled d.digits d.exponent low (q - 2)
  let above := compareScaled d.digits d.exponent high (q - 2)
  (below == .gt || (closed && below == .eq)) && (above == .lt || (closed && above == .eq))

/-- How many decimal digits a number has; zero has one. -/
def length (n : Nat) : Nat := if n < 10 then 1 else length (n / 10) + 1
termination_by n

/-- The exponent `k` with 10^(k - 1) ≤ num / den < 10^k, for a positive quotient. -/
def scale (num den : Nat) : Int :=
  if den ≤ num then (length (num / den) : Int)
  else
    -- The least t with den ≤ num * 10^t has as many tens as this number has digits.
    1 - (length ((den - 1) / num) : Int)

/-- The neighbours of num / den on the grid of 10^exponent, the nearer first. -/
def neighbours (tie : Tie) (num den : Nat) (exponent : Int) : List Decimal :=
  let n := num * 10 ^ (-exponent).toNat
  let d := den * 10 ^ exponent.toNat
  let lower := n / d
  let below : Decimal := ⟨lower, exponent⟩
  let above : Decimal := ⟨lower + 1, exponent⟩
  match compare (2 * n) ((2 * lower + 1) * d), tie with
  | .lt, _ => [below, above]
  | .gt, _ | .eq, .away => [above, below]
  | .eq, .toEven => if lower % 2 = 1 then [above, below] else [below, above]

/-- The decimal without trailing zeros in its digits. -/
def stripped (d : Decimal) : Decimal :=
  if d.digits = 0 then ⟨0, 0⟩
  else if d.digits % 10 = 0 then stripped ⟨d.digits / 10, d.exponent + 1⟩ else d
termination_by d.digits

/-- The exact value of m * 2^q. -/
def exact (m : Nat) (q : Int) : Decimal := ⟨m * 2 ^ q.toNat * 5 ^ (-q).toNat, min q 0⟩

/-- The shortest decimal that reads back to a positive m * 2^q. -/
def shortest (tie : Tie) (m : Nat) (q : Int) (narrow : Bool) : Decimal :=
  let num := m * 2 ^ q.toNat
  let den := 2 ^ (-q).toNat
  let k := scale num den
  let found := (List.range 17).findSome? fun n =>
    (neighbours tie num den (k - 1 - (n : Nat))).find? (readsBack m q narrow)
  stripped (found.getD (exact m q))

end Decimal

end BusCompliance
