import BusCompliance.Template.Constraint
import BusCompliance.Template.Pattern

/-!
# Field specifications

What a template asks of one field. A control specification is never a field of a message; one with
children describes a group of numbered members instead.
-/

namespace BusCompliance

inductive FieldMode
  | required
  | optional
  | control
deriving DecidableEq, Repr

namespace FieldMode

def all : List FieldMode := [.required, .optional, .control]

def word : FieldMode → String
  | .required => "REQUIRED"
  | .optional => "OPTIONAL"
  | .control => "CONTROL"

end FieldMode

/-- Which value types a field may have. -/
inductive TypeSpec
  | variable
  | oneOf (types : List ValueType)
deriving DecidableEq, Repr

namespace TypeSpec

def accepts : TypeSpec → ValueType → Bool
  | .variable, _ => true
  | .oneOf types, t => types.contains t

/-- The type, if there is exactly one. -/
def single? : TypeSpec → Option ValueType
  | .oneOf [t] => some t
  | _ => none

def text : TypeSpec → String
  | .variable => "VARIABLE"
  | .oneOf types => ", ".intercalate (types.map ValueType.name)

end TypeSpec

structure FieldSpec where
  name : String
  type : TypeSpec
  mode : FieldMode
  /-- A label that groups fields for readers. -/
  classification : String
  /-- The text of the value that a new message starts with. -/
  default : Option String
  description : String
  /-- The values allowed; none means all. -/
  constraints : List Constraint
  pattern : Option Pattern
  /-- What the names of a group's members begin with, if not the name of the group. -/
  element : Option String
  /-- The specifications of each member of a group. -/
  children : List FieldSpec

namespace FieldSpec

def new (name : String) (type : TypeSpec) (mode : FieldMode) : FieldSpec :=
  ⟨name, type, mode, "", none, "", [], none, none, []⟩

instance : Inhabited FieldSpec := ⟨new "" .variable .control⟩

def isGroup (s : FieldSpec) : Bool := s.mode == .control && !s.children.isEmpty

def elementName (s : FieldSpec) : String := s.element.getD s.name

/-- The field that holds the number of members of a group. -/
def sizeName (s : FieldSpec) : String := s!"NUM-OF-{s.name}"

/-- The field that a new message starts with, where there is a default and exactly one type. -/
def defaultField (s : FieldSpec) : Except Error (Option Field) :=
  match s.mode, s.default, s.type.single? with
  | .control, _, _ => .ok none
  | _, some text, some type => (Field.ofText s.name type text).map some
  | _, _, _ => .ok none

/-- The specifications with one more, which replaces an earlier one of its name in place. -/
def place (specs : List FieldSpec) (s : FieldSpec) : List FieldSpec :=
  match specs with
  | [] => [s]
  | t :: rest => if t.name = s.name then s :: rest else t :: place rest s

/-- Put specifications over others, one after the other. -/
def overlay (base specs : List FieldSpec) : List FieldSpec := specs.foldl place base

end FieldSpec

end BusCompliance
