import BusCompliance.Error
import BusCompliance.Value.Basic

/-!
# Coercions

A value as an integer, a double or a truth value. An integer target is reached through the exact
whole number that the value stands for; nothing wraps and nothing is clamped.
-/

namespace BusCompliance

namespace Value

/-- The number that bytes spell, the most significant first. -/
def bigEndian (bytes : List UInt8) : Nat := bytes.foldl (fun n b => 256 * n + b.toNat) 0

/-- The whole number a value stands for: floats lose their fraction, and bytes count only if there
are at most `width` of them. A string never stands for a number here. -/
def integral? (width : Nat) : Value → Option Int
  | .char c => some c.toNat
  | .bool b => some (if b then 1 else 0)
  | .integer _ n => some n.val
  | .float .f32 bits => FloatType.truncate? .f64 (FloatType.widen bits)
  | .float .f64 bits => FloatType.truncate? .f64 bits
  | .string _ => none
  | .binary bytes =>
    if bytes.isEmpty ∨ width < bytes.length then none else some (bigEndian bytes)

def toInteger (t : IntegerType) (v : Value) : Except Error t.Number :=
  match (v.integral? t.bytes).bind t.number? with
  | some n => .ok n
  | none => .error (.notNumeric (.integer t))

/-- The value as a double. Eight bytes are taken as its pattern. -/
def toDouble (v : Value) : Except Error FloatType.f64.Bits :=
  match v with
  | .char c => .ok (FloatType.ofInt .f64 c.toNat)
  | .bool b => .ok (FloatType.ofInt .f64 (if b then 1 else 0))
  | .integer _ n => .ok (FloatType.ofInt .f64 n.val)
  | .float .f32 bits => .ok (FloatType.widen bits)
  | .float .f64 bits => .ok bits
  | .string _ => .error (.notNumeric (.float .f64))
  | .binary bytes =>
    if bytes.length = 8 then .ok (BitVec.ofNat _ (bigEndian bytes))
    else .error (.notNumeric (.float .f64))

/-- A truth value as text: a word in any case, or any number but NaN. -/
def truthOfText (s : String) : Except Error Bool :=
  let word := Text.trim s
  if Text.sameLetters word "TRUE" then .ok true
  else if Text.sameLetters word "FALSE" then .ok false
  else
    match FloatType.read? .f64 word.toList with
    | none => .error .notBoolean
    | some bits =>
      if FloatType.isNaN .f64 bits then .error .notBoolean
      else .ok (FloatType.isNonzero .f64 bits)

/-- Whatever is not zero is true, NaN included; a string has to spell a truth value. -/
def toBool (v : Value) : Except Error Bool :=
  match v with
  | .char c => .ok (c.toNat != 0)
  | .bool b => .ok b
  | .integer _ n => .ok (n.val != 0)
  | .float t bits => .ok (t.isNonzero bits)
  | .string s => truthOfText s
  | .binary bytes => .ok (bytes.any (· != 0))

end Value

end BusCompliance
