import BusCompliance.Value.Reading

/-!
# Fields

A field is a value under a name, and a name is never blank.
-/

namespace BusCompliance

structure Field where
  name : String
  value : Value
  named : Text.allBlank name = false
deriving DecidableEq

namespace Field

def make (name : String) (value : Value) : Except Error Field :=
  if h : Text.allBlank name = false then .ok ⟨name, value, h⟩ else .error .blankFieldName

/-- A field from the text of its value. A bad value is reported before a bad name. -/
def ofText (name : String) (type : ValueType) (text : String) : Except Error Field := do
  let value ← Value.read type text
  make name value

/-- The same name, and values that are the same number or the same text. -/
def sameAs (a b : Field) : Bool := a.name == b.name && a.value.sameAs b.value

def type (f : Field) : ValueType := f.value.type

def text (f : Field) : String := f.value.text

@[simp] theorem make_self (f : Field) : make f.name f.value = .ok f := by simp [make, f.named]

end Field

end BusCompliance
