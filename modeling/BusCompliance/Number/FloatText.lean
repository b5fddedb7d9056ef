import BusCompliance.Number.Natural
import BusCompliance.Number.Shortest

/-!
# Floats as text

`FloatType.text` writes the shortest decimal and never an exponent; `FloatType.read?` reads any
decimal and rounds it once.
-/

namespace BusCompliance

/-! ## Writing -/

namespace Decimal

/-- The decimal in positional form: zeros after the digits, or a point inside or before them. -/
def positional (d : Decimal) : List Char :=
  let ds := Natural.digits d.digits
  if 0 ≤ d.exponent then ds ++ List.replicate d.exponent.toNat '0'
  else
    let places := (-d.exponent).toNat
    if places < ds.length then ds.take (ds.length - places) ++ '.' :: ds.drop (ds.length - places)
    else '0' :: '.' :: List.replicate (places - ds.length) '0' ++ ds

end Decimal

namespace FloatType

def signed (negative : Bool) (cs : List Char) : List Char := if negative then '-' :: cs else cs

/-- The shortest text that reads back. It has no exponent, no point in a whole number, and keeps
the sign of zero. -/
def text (t : FloatType) (bits : t.Bits) : String :=
  match t.decode bits with
  | .nan => "NaN"
  | .infinite negative => String.ofList (signed negative "inf".toList)
  | .finite negative m q =>
    let d := if m = 0 then ⟨0, 0⟩ else Decimal.shortest .away m q (t.narrowBelow bits)
    String.ofList (signed negative d.positional)

end FloatType

/-! ## Reading -/

/-- A number as it is written: a decimal, an infinity or NaN. -/
inductive FloatLiteral
  | nan (negative : Bool)
  | infinite (negative : Bool)
  | decimal (negative : Bool) (value : Decimal)
deriving DecidableEq, Repr

namespace FloatLiteral

/-- The digits at the start of the text, and what follows them. -/
def spanDigits (cs : List Char) : List Char × List Char :=
  (cs.takeWhile isDigit, cs.dropWhile isDigit)

/-- What stands after a mantissa: nothing, or an exponent of one or more digits. -/
def exponent? : List Char → Option Int
  | [] => some 0
  | c :: r => if c = 'e' ∨ c = 'E' then Whole.read? true r else none

/-- Digits with an optional point and exponent; one digit at least must stand before or after the
point. -/
def unsigned? (cs : List Char) : Option Decimal :=
  let (whole, rest) := spanDigits cs
  let (fraction, rest) :=
    match rest with
    | '.' :: r => spanDigits r
    | r => ([], r)
  match Natural.ofDigits? (whole ++ fraction), exponent? rest with
  | some n, some e => some ⟨n, e - fraction.length⟩
  | _, _ => none

/-- A sign, if there is one, and the rest. -/
def sign : List Char → Bool × List Char
  | '-' :: r => (true, r)
  | '+' :: r => (false, r)
  | cs => (false, cs)

/-- A number with an optional sign. The words for infinity and NaN are read in any case. -/
def read? (cs : List Char) : Option FloatLiteral :=
  let (negative, body) := sign cs
  let word := body.map Char.toLower
  if word = "inf".toList ∨ word = "infinity".toList then some (.infinite negative)
  else if word = "nan".toList then some (.nan negative)
  else (unsigned? body).map (.decimal negative)

end FloatLiteral

namespace FloatType

/-- The pattern nearest to a decimal. Far outside the range of every format the powers of ten are
not worked out. -/
def ofDecimal (t : FloatType) (negative : Bool) (d : Decimal) : t.Bits :=
  let top := d.exponent + Decimal.length d.digits
  if d.digits = 0 ∨ top < -400 then t.nearest negative 0 1
  else if 400 < top then t.infinity negative
  else t.nearest negative (d.digits * 10 ^ d.exponent.toNat) (10 ^ (-d.exponent).toNat)

def ofLiteral (t : FloatType) : FloatLiteral → t.Bits
  | .nan negative => t.quietNaN negative
  | .infinite negative => t.infinity negative
  | .decimal negative d => t.ofDecimal negative d

/-- The float that a text spells, correctly rounded. -/
def read? (t : FloatType) (cs : List Char) : Option t.Bits :=
  (FloatLiteral.read? cs).map t.ofLiteral

/-- A single-precision value as the double that its shortest text spells, so that 0.1 stays 0.1. -/
def widen (bits : FloatType.f32.Bits) : FloatType.f64.Bits :=
  (FloatType.f64.read? (FloatType.f32.text bits).toList).getD (FloatType.f64.quietNaN false)

/-- The value of a finite pattern without its fraction. -/
def truncate? (t : FloatType) (bits : t.Bits) : Option Int :=
  match t.decode bits with
  | .finite negative m q =>
    let n : Int := (m * 2 ^ q.toNat / 2 ^ (-q).toNat : Nat)
    some (if negative then -n else n)
  | _ => none

end FloatType

end BusCompliance
