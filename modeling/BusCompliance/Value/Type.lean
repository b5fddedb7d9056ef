import BusCompliance.Number.FloatType
import BusCompliance.Number.IntegerType
import BusCompliance.Text.Blank
import BusCompliance.Text.Case

/-!
# Value types

The fourteen types of a field value and their names on the wire.
-/

namespace BusCompliance

def FloatType.name : FloatType → String
  | .f32 => "F32"
  | .f64 => "F64"

inductive ValueType
  | char
  | bool
  | integer (t : IntegerType)
  | float (t : FloatType)
  | string
  | binary
deriving DecidableEq, Repr

namespace ValueType

/-- The canonical name. -/
def name : ValueType → String
  | .char => "CHAR"
  | .bool => "BOOL"
  | .integer t => t.name
  | .float t => t.name
  | .string => "STRING"
  | .binary => "BIN"

def isFloat : ValueType → Bool
  | .float _ => true
  | _ => false

/-- Every name that is read, upper case, with the type it stands for. -/
def names : List (String × ValueType) :=
  [("CHAR", .char), ("BOOL", .bool), ("BOOLEAN", .bool), ("I8", .integer .i8),
    ("I16", .integer .i16), ("I32", .integer .i32), ("I64", .integer .i64), ("U8", .integer .u8),
    ("U16", .integer .u16), ("U32", .integer .u32), ("U64", .integer .u64), ("F32", .float .f32),
    ("F64", .float .f64), ("STRING", .string), ("BIN", .binary), ("BINARY", .binary),
    ("BLOB", .binary)]

/-- The type that a name stands for, in any case and with blanks around it. -/
def ofName? (text : String) : Option ValueType := names.lookup (Text.upper (Text.trim text))

/-- A canonical name stands for its own type. -/
theorem ofName?_name (t : ValueType) : ofName? t.name = some t := by
  cases t with
  | integer t => cases t <;> decide +kernel
  | float t => cases t <;> decide +kernel
  | _ => decide +kernel

end ValueType

end BusCompliance
