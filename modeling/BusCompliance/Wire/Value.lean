import BusCompliance.Field

/-!
# Values on the wire

The text of a value in a document, and the value that a document states. Both document formats
agree on this.
-/

namespace BusCompliance

/-- The text of a value in a document: truth values are words in upper case. -/
def Value.wireText : Value → String
  | .bool b => if b then "TRUE" else "FALSE"
  | v => v.text

namespace Wire

/-- The value a document states. Bits stand for a float whatever the text says; with any other type
only the text counts. -/
def readValue (type : ValueType) (bits : Option String) (text : String) : Except Error Value :=
  match bits, type.isFloat with
  | some bits, true => Value.ofBits type bits
  | _, _ => Value.read type text

/-- The type that a document names. -/
def readType (name : String) : Except Error ValueType :=
  match ValueType.ofName? name with
  | some type => .ok type
  | none => .error (.unknownType name)

@[simp] theorem readType_name (t : ValueType) : readType t.name = .ok t := by
  simp [readType, ValueType.ofName?_name]

end Wire

end BusCompliance
