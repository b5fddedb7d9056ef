import BusCompliance.Value.Coercion

/-!
# Reading values

A value of a given type from its text, and a float from its hex pattern.
-/

namespace BusCompliance

namespace Value

/-- Numbers and hex bytes may have blanks around them; a character and a string are taken as they
stand. -/
def read (type : ValueType) (text : String) : Except Error Value :=
  let unreadable : Error := .unreadableValue text type
  let trimmed := Text.trimChars text.toList
  match type with
  | .char =>
    match text.toList with
    | [c] => .ok (.char c)
    | _ => .error unreadable
  | .bool => (truthOfText text).map .bool
  | .integer t =>
    match t.read? trimmed with
    | some n => .ok (.integer t n)
    | none => .error unreadable
  | .float t =>
    match t.read? trimmed with
    | some bits => .ok (.float t bits)
    | none => .error unreadable
  | .string => .ok (.string text)
  | .binary =>
    match Hex.decode trimmed with
    | .ok bytes => .ok (.binary bytes)
    | .error fault => .error (.unreadableBytes text fault)

/-- A float from the hex digits of its pattern. Only float types have patterns. -/
def ofBits (type : ValueType) (bits : String) : Except Error Value :=
  match type with
  | .float t =>
    match Hex.number? (Text.trimChars bits.toList) with
    | some n =>
      if n < 2 ^ t.width then .ok (.float t (BitVec.ofNat _ n)) else .error (.invalidBits bits type)
    | none => .error (.invalidBits bits type)
  | _ => .error (.invalidBits bits type)

end Value

end BusCompliance
