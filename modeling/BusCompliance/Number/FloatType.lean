import BusCompliance.Number.Natural

/-!
# Binary floating point

The two interchange formats, as bit patterns. A pattern is read as a sign, a whole number `m` and
an exponent `q`, standing for m * 2^q, and a quotient of naturals is rounded to the nearest
pattern. Every step is exact arithmetic on whole numbers.
-/

namespace BusCompliance

inductive FloatType
  | f32
  | f64
deriving DecidableEq, Repr

/-- What a bit pattern stands for. -/
inductive FloatReading
  | nan
  | infinite (negative : Bool)
  /-- The number m * 2^q, or its negative. -/
  | finite (negative : Bool) (m : Nat) (q : Int)
deriving DecidableEq, Repr

namespace FloatType

/-! ## The formats -/

def width : FloatType → Nat
  | .f32 => 32
  | .f64 => 64

/-- The bits of the fraction, below those of the exponent. -/
def fractionBits : FloatType → Nat
  | .f32 => 23
  | .f64 => 52

/-- The exponent `q` of the least patterns. -/
def leastExponent : FloatType → Int
  | .f32 => -149
  | .f64 => -1074

/-- The exponent field of infinities and NaN. -/
def topExponent : FloatType → Nat
  | .f32 => 255
  | .f64 => 2047

/-- The pattern of a value in a format. -/
abbrev Bits (t : FloatType) : Type := BitVec t.width

/-- The pattern of infinity, without the sign. -/
def infinityCode (t : FloatType) : Nat := t.topExponent * 2 ^ t.fractionBits

def signCode (t : FloatType) (negative : Bool) : Nat := if negative then 2 ^ (t.width - 1) else 0

/-- The pattern without its sign bit. -/
def magnitude (t : FloatType) (bits : t.Bits) : Nat := bits.toNat % 2 ^ (t.width - 1)

def isNegative (t : FloatType) (bits : t.Bits) : Bool := 2 ^ (t.width - 1) ≤ bits.toNat

def infinity (t : FloatType) (negative : Bool) : t.Bits :=
  BitVec.ofNat _ (t.signCode negative + t.infinityCode)

/-- The quiet NaN with no payload. -/
def quietNaN (t : FloatType) (negative : Bool) : t.Bits :=
  BitVec.ofNat _ (t.signCode negative + t.infinityCode + 2 ^ (t.fractionBits - 1))

/-! ## Reading a pattern -/

def decode (t : FloatType) (bits : t.Bits) : FloatReading :=
  let code := t.magnitude bits
  let exponent := code / 2 ^ t.fractionBits
  let fraction := code % 2 ^ t.fractionBits
  if exponent = t.topExponent then
    if fraction = 0 then .infinite (t.isNegative bits) else .nan
  else if exponent = 0 then .finite (t.isNegative bits) fraction t.leastExponent
  else .finite (t.isNegative bits) (2 ^ t.fractionBits + fraction) (t.leastExponent + exponent - 1)

/-- The gap to the value below is half the gap to the value above. -/
def narrowBelow (t : FloatType) (bits : t.Bits) : Bool :=
  let code := t.magnitude bits
  code % 2 ^ t.fractionBits = 0 && 1 < code / 2 ^ t.fractionBits

/-- A whole number that orders patterns as their values are ordered. Both zeros have rank zero and
NaN has none. -/
def rank? (t : FloatType) (bits : t.Bits) : Option Int :=
  let code := t.magnitude bits
  if t.infinityCode < code then none
  else some (if t.isNegative bits then -(code : Int) else code)

/-- Numeric equality: the zeros are equal, and NaN differs from itself. -/
def sameNumber (t : FloatType) (a b : t.Bits) : Bool :=
  match t.rank? a, t.rank? b with
  | some x, some y => x == y
  | _, _ => false

/-- Numeric order, false where NaN takes part. -/
def atMost (t : FloatType) (a b : t.Bits) : Bool :=
  match t.rank? a, t.rank? b with
  | some x, some y => x ≤ y
  | _, _ => false

/-- The value is no zero. NaN is none either. -/
def isNonzero (t : FloatType) (bits : t.Bits) : Bool := t.rank? bits != some 0

def isNaN (t : FloatType) (bits : t.Bits) : Bool := (t.rank? bits).isNone

/-! ## Rounding -/

/-- The quotient rounded to a whole number, a half going to the even neighbour. -/
def roundDiv (num den : Nat) : Nat :=
  let quotient := num / den
  let rest := num % den
  if 2 * rest < den then quotient
  else if den < 2 * rest then quotient + 1
  else if quotient % 2 = 0 then quotient else quotient + 1

/-- The exponent `e` with 2^e ≤ num / den < 2^(e + 1), for a positive quotient. -/
def binaryExponent (num den : Nat) : Int :=
  let guess := (num.log2 : Int) - den.log2
  if den * 2 ^ guess.toNat ≤ num * 2 ^ (-guess).toNat then guess else guess - 1

/-- The pattern nearest to num / den, ties to even; beyond the largest value it is infinity. -/
def nearestCode (t : FloatType) (num den : Nat) : Nat :=
  if num = 0 then 0
  else
    let q := max (binaryExponent num den - t.fractionBits) t.leastExponent
    let m := roundDiv (num * 2 ^ (-q).toNat) (den * 2 ^ q.toNat)
    min ((q - t.leastExponent).toNat * 2 ^ t.fractionBits + m) t.infinityCode

def nearest (t : FloatType) (negative : Bool) (num den : Nat) : t.Bits :=
  BitVec.ofNat _ (t.signCode negative + t.nearestCode num den)

/-- The pattern nearest to a whole number. -/
def ofInt (t : FloatType) (n : Int) : t.Bits := t.nearest (n < 0) n.natAbs 1

end FloatType

end BusCompliance
