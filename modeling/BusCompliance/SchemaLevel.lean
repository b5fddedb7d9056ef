import BusCompliance.Error

/-!
# Schema levels

A specification is layered: a level adds to the levels below it or overrides them.
-/

namespace BusCompliance

structure SchemaLevel where
  value : Nat
  value_le : value ≤ 6
deriving DecidableEq, Repr

namespace SchemaLevel

def base : SchemaLevel := ⟨0, by decide⟩

instance : Inhabited SchemaLevel := ⟨base⟩

def ofNat (n : Nat) : Except Error SchemaLevel :=
  if h : n ≤ 6 then .ok ⟨n, h⟩ else .error (.levelOutOfRange n)

def text (l : SchemaLevel) : String := s!"LEVEL-{l.value}"

@[simp] theorem ofNat_value (l : SchemaLevel) : ofNat l.value = .ok l := by
  simp [ofNat, l.value_le]

end SchemaLevel

end BusCompliance
