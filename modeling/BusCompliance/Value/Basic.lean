import BusCompliance.Number.FloatText
import BusCompliance.Text.Hex
import BusCompliance.Value.Type

/-!
# Values

A value carries its type. Floats are bit patterns, so two values are equal exactly when they are
equal bit for bit; `sameAs` is the numeric comparison.
-/

namespace BusCompliance

inductive Value
  | char (c : Char)
  | bool (b : Bool)
  | integer (t : IntegerType) (n : t.Number)
  | float (t : FloatType) (bits : t.Bits)
  | string (s : String)
  | binary (bytes : List UInt8)
deriving DecidableEq

namespace Value

def type : Value → ValueType
  | .char _ => .char
  | .bool _ => .bool
  | .integer t _ => .integer t
  | .float t _ => .float t
  | .string _ => .string
  | .binary _ => .binary

/-- Equality as numbers are compared: the two zeros of a float type are the same, and NaN is not
even the same as itself. -/
def sameAs : Value → Value → Bool
  | .float .f32 a, .float .f32 b => FloatType.sameNumber .f32 a b
  | .float .f64 a, .float .f64 b => FloatType.sameNumber .f64 a b
  | .float _ _, _ => false
  | a, b => a == b

/-- Literal text of strings and characters, decimal numbers, upper-case hex for bytes. -/
def text : Value → String
  | .char c => String.ofList [c]
  | .bool b => if b then "true" else "false"
  | .integer _ n => Whole.text n.val
  | .float t bits => t.text bits
  | .string s => s
  | .binary bytes => String.ofList (Hex.encode bytes)

/-- The upper-case hex pattern of a float. -/
def bits? : Value → Option String
  | .float t bits => some (String.ofList (Hex.fixed (t.width / 4) bits.toNat))
  | _ => none

end Value

end BusCompliance
