import BusCompliance.Number.FloatText

/-!
# Numbers in JSON

A whole number that fits 64 bits is kept exactly. Any other number is a double: the digits that fit
an unsigned 64-bit number are kept, and the result is rounded once and scaled once by a power of
ten.
-/

namespace BusCompliance.Json

inductive Number
  | integer (n : Int)
  | float (bits : FloatType.f64.Bits)
deriving DecidableEq, Repr

namespace Number

/-! ## Doubles -/

/-- The number m * 2^q that a finite pattern stands for. -/
def parts (bits : FloatType.f64.Bits) : Nat × Int :=
  match FloatType.f64.decode bits with
  | .finite _ m q => (m, q)
  | _ => (0, 0)

/-- The double nearest to m / n * 2^q. -/
def rounded (m n : Nat) (q : Int) : FloatType.f64.Bits :=
  FloatType.f64.nearest false (m * 2 ^ q.toNat) (n * 2 ^ (-q).toNat)

def product (a b : FloatType.f64.Bits) : FloatType.f64.Bits :=
  rounded ((parts a).1 * (parts b).1) 1 ((parts a).2 + (parts b).2)

def quotient (a b : FloatType.f64.Bits) : FloatType.f64.Bits :=
  rounded (parts a).1 (parts b).1 ((parts a).2 - (parts b).2)

/-- The greatest power of ten that a double can be. -/
def greatestTen : Nat := 308

def powerOfTen (n : Nat) : FloatType.f64.Bits := FloatType.f64.nearest false (10 ^ n) 1

/-- A double divided by the greatest power of ten as often as it takes, then by what is left. -/
def scaleDown (x : FloatType.f64.Bits) (n : Nat) : FloatType.f64.Bits :=
  if n ≤ greatestTen then quotient x (powerOfTen n)
  else if x = 0 then x
  else scaleDown (quotient x (powerOfTen greatestTen)) (n - greatestTen)
termination_by n
decreasing_by simp only [greatestTen] at *; omega

/-- A double times a power of ten, unless the result is too large. -/
def scale (x : FloatType.f64.Bits) (exponent : Int) : Option FloatType.f64.Bits :=
  if x = 0 then some x
  else if exponent < 0 then some (scaleDown x (-exponent).toNat)
  else if greatestTen < exponent.toNat then none
  else
    let y := product x (powerOfTen exponent.toNat)
    if y = FloatType.f64.infinity false then none else some y

/-! ## Reading -/

/-- The digits that still fit an unsigned 64-bit number, and how many are left over from the first
that does not. -/
def keep (significand : Nat) : List Nat → Nat × Nat
  | [] => (significand, 0)
  | d :: ds =>
    if 10 * significand + d < 2 ^ (64 : Nat) then keep (10 * significand + d) ds
    else (significand, ds.length + 1)

def digitValues (cs : List Char) : List Nat := cs.filterMap digitValue?

/-- The double of a number with these digits before and after the point. -/
def float? (negative : Bool) (whole fraction : List Char) (exponent : Int) : Option Number :=
  let (significand, excess) := keep 0 (digitValues whole)
  let (significand, dropped) := keep significand (digitValues fraction)
  let places : Int := (fraction.length - dropped : Nat)
  let signBit : FloatType.f64.Bits :=
    if negative then BitVec.ofNat _ (FloatType.f64.signCode true) else 0
  (scale (FloatType.f64.ofInt significand) (excess - places + exponent)).map fun x =>
    .float (x ||| signBit)

/-- A number without point and exponent. Minus zero is a double. -/
def whole? (negative : Bool) (whole : List Char) : Option Number :=
  match Natural.ofDigits? whole with
  | none => none
  | some n =>
    if !negative ∧ n < 2 ^ (64 : Nat) then some (.integer n)
    else if negative ∧ 0 < n ∧ n ≤ 2 ^ (63 : Nat) then some (.integer (-n))
    else float? negative whole [] 0

end Number

/-- A number as it is written. -/
structure NumberLiteral where
  negative : Bool
  whole : List Char
  /-- The digits behind the point, if there is a point. -/
  fraction : Option (List Char)
  exponent : Option Int
deriving DecidableEq, Repr

namespace NumberLiteral

/-- Nothing, or an exponent mark with an optional sign and digits. -/
def exponent? : List Char → Option (Option Int)
  | [] => some none
  | c :: r => if c = 'e' ∨ c = 'E' then (Whole.read? true r).map some else none

/-- The whole text as a number: no leading zero, digits on both sides of a point. -/
def read? (cs : List Char) : Option NumberLiteral :=
  let (negative, body) :=
    match cs with
    | '-' :: r => (true, r)
    | r => (false, r)
  let (whole, rest) := FloatLiteral.spanDigits body
  if whole.isEmpty ∨ (whole.head? = some '0' ∧ 1 < whole.length) then none
  else
    match rest with
    | '.' :: r =>
      let (fraction, rest) := FloatLiteral.spanDigits r
      if fraction.isEmpty then none
      else (exponent? rest).map fun exponent => ⟨negative, whole, some fraction, exponent⟩
    | r => (exponent? r).map fun exponent => ⟨negative, whole, none, exponent⟩

/-- The number that is written, unless it is too large for a double. -/
def value? (l : NumberLiteral) : Option Number :=
  match l.fraction, l.exponent with
  | none, none => Number.whole? l.negative l.whole
  | fraction, exponent =>
    Number.float? l.negative l.whole (fraction.getD []) (exponent.getD 0)

end NumberLiteral

namespace Number

/-! ## Writing -/

/-- How a double is written: positional for a leading digit from 10^-5 up to 10^15, with a zero
after the point of a whole number, and else with a signed exponent. -/
def floatChars (bits : FloatType.f64.Bits) : List Char :=
  let (m, q) := parts bits
  let d := if m = 0 then ⟨0, 0⟩ else Decimal.shortest .toEven m q (FloatType.f64.narrowBelow bits)
  let digits := Natural.digits d.digits
  let leading := d.exponent + digits.length - 1
  let body :=
    if -5 ≤ leading ∧ leading < 16 then
      if 0 ≤ d.exponent then d.positional ++ ['.', '0'] else d.positional
    else
      let fraction := if digits.length = 1 then [] else '.' :: digits.drop 1
      let mark := if 0 ≤ leading then ['e', '+'] else ['e']
      digits.take 1 ++ fraction ++ mark ++ Whole.digits leading
  FloatType.signed (FloatType.f64.isNegative bits) body

def chars : Number → List Char
  | .integer n => Whole.digits n
  | .float bits => floatChars bits

end Number

end BusCompliance.Json
