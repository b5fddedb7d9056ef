import BusCompliance.Number.FloatText
import BusCompliance.Number.IntegerType
import BusCompliance.Text.Hex
import BusCompliance.Toml.Moment

/-!
# TOML values

The values that configuration and schema documents are made of. No setting is a fraction or a
date; such values stand only where nothing reads them.
-/

namespace BusCompliance.Toml

/-- How a table came to be, which decides what may still be put into it. -/
inductive Origin
  /-- Written between braces; it is complete. -/
  | braces
  /-- Named by a header of its own. -/
  | header
  /-- Named only on the way to another header. -/
  | onTheWay
  /-- Named by the front part of a dotted key. -/
  | dottedKey
deriving DecidableEq, Repr

inductive Value
  | integer (n : Int)
  | float (bits : FloatType.f64.Bits)
  | moment (text : String)
  | bool (b : Bool)
  | string (s : String)
  /-- A `listed` array grows with every header in double brackets that names it. -/
  | array (listed : Bool) (items : List Value)
  | table (origin : Origin) (members : List (String × Value))
deriving Repr

instance : Inhabited Value := ⟨.bool false⟩

/-! ## Words as values -/

/-- Digits with single underscores between them. -/
def digitsOf? (isDigitChar : Char → Bool) (cs : List Char) : Option (List Char) :=
  let groups := cs.splitOn '_'
  if groups.all fun g => !g.isEmpty && g.all isDigitChar then some groups.flatten else none

def binaryValue (n : Nat) (c : Char) : Nat := 2 * n + (c.toNat - 48)

def octalValue (n : Nat) (c : Char) : Nat := 8 * n + (c.toNat - 48)

/-- A decimal number without leading zeros. -/
def decimal? (cs : List Char) : Option Nat := do
  let digits ← digitsOf? isDigit cs
  if digits.head? = some '0' ∧ 1 < digits.length then none else Natural.ofDigits? digits

/-- A whole number: decimal with an optional sign, or in base sixteen, eight or two without one. -/
def integer? : List Char → Option Int
  | '+' :: r => (decimal? r).map Int.ofNat
  | '-' :: r => (decimal? r).map fun n => -(n : Int)
  | '0' :: 'x' :: r => do
    let digits ← digitsOf? (fun c => (Hex.value? c).isSome) r
    (Hex.ofDigits? digits).map Int.ofNat
  | '0' :: 'o' :: r =>
    (digitsOf? (fun c => '0' ≤ c ∧ c ≤ '7') r).map fun digits => (digits.foldl octalValue 0 : Nat)
  | '0' :: 'b' :: r =>
    (digitsOf? (fun c => c = '0' ∨ c = '1') r).map fun digits => (digits.foldl binaryValue 0 : Nat)
  | cs => (decimal? cs).map Int.ofNat

/-- Digits, which may have zeros in front. -/
def isDigits (cs : List Char) : Bool := (digitsOf? isDigit cs).isSome

/-- An exponent mark with an optional sign and digits. -/
def isExponent : List Char → Bool
  | c :: r =>
    (c = 'e' || c = 'E') &&
      match r with
      | '+' :: r | '-' :: r => isDigits r
      | r => isDigits r
  | [] => false

/-- A decimal number with a point, an exponent or both. -/
def isFraction (cs : List Char) : Bool :=
  let inDigits (c : Char) : Bool := isDigit c || c = '_'
  (decimal? (cs.takeWhile inDigits)).isSome &&
    match cs.dropWhile inDigits with
    | '.' :: r =>
      isDigits (r.takeWhile inDigits) &&
        (r.dropWhile inDigits == [] || isExponent (r.dropWhile inDigits))
    | r => isExponent r

/-- A float: a fraction, an infinity or NaN. No fraction may be too large to be anything but
positive infinity. -/
def float? (cs : List Char) : Option FloatType.f64.Bits :=
  let body := (FloatLiteral.sign cs).2
  let bits := FloatType.f64.read? (cs.filter (· != '_'))
  if body = "inf".toList ∨ body = "nan".toList then bits
  else if isFraction body ∧ bits ≠ some (FloatType.f64.infinity false) then bits
  else none

/-- The value of a word. Whole numbers have 64 bits. -/
def wordValue? (cs : List Char) : Option Value :=
  if cs = "true".toList then some (.bool true)
  else if cs = "false".toList then some (.bool false)
  else if Moment.isMoment cs then some (.moment (String.ofList cs))
  else
    match float? cs with
    | some bits => some (.float bits)
    | none => ((integer? cs).bind IntegerType.i64.number?).map fun n => .integer n.val

end BusCompliance.Toml
