import BusCompliance.Number.Natural

/-!
# Bounded integers

The eight integer types of the bus and the numbers that fit each of them.
-/

namespace BusCompliance

inductive IntegerType
  | i8
  | i16
  | i32
  | i64
  | u8
  | u16
  | u32
  | u64
deriving DecidableEq, Repr

namespace IntegerType

def name : IntegerType → String
  | .i8 => "I8"
  | .i16 => "I16"
  | .i32 => "I32"
  | .i64 => "I64"
  | .u8 => "U8"
  | .u16 => "U16"
  | .u32 => "U32"
  | .u64 => "U64"

def isSigned : IntegerType → Bool
  | .i8 | .i16 | .i32 | .i64 => true
  | .u8 | .u16 | .u32 | .u64 => false

/-- The width in bytes. -/
def bytes : IntegerType → Nat
  | .i8 | .u8 => 1
  | .i16 | .u16 => 2
  | .i32 | .u32 => 4
  | .i64 | .u64 => 8

def least (t : IntegerType) : Int := if t.isSigned then -2 ^ (8 * t.bytes - 1) else 0

def greatest (t : IntegerType) : Int :=
  if t.isSigned then 2 ^ (8 * t.bytes - 1) - 1 else 2 ^ (8 * t.bytes) - 1

/-- A number of the type's range. -/
structure Number (t : IntegerType) where
  val : Int
  least_le : t.least ≤ val
  le_greatest : val ≤ t.greatest
deriving DecidableEq

instance (t : IntegerType) : Repr t.Number := ⟨fun n p => reprPrec n.val p⟩

/-- The number, if it is in range. Nothing wraps. -/
def number? (t : IntegerType) (n : Int) : Option t.Number :=
  if h : t.least ≤ n ∧ n ≤ t.greatest then some ⟨n, h.1, h.2⟩ else none

@[simp] theorem number?_val (t : IntegerType) (n : t.Number) : t.number? n.val = some n := by
  simp [number?, n.least_le, n.le_greatest]

/-- The number that a decimal text spells, if it is in range. -/
def read? (t : IntegerType) (cs : List Char) : Option t.Number :=
  (Whole.read? t.isSigned cs).bind t.number?

end IntegerType

end BusCompliance
