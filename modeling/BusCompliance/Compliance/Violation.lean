import BusCompliance.Status
import BusCompliance.Template.Basic

/-!
# Violations

What can be wrong with a message, field by field and in its subject. A violation names what it is
about; `Violation.detail` and `SubjectFault.detail` are the only places that word it.
-/

namespace BusCompliance

/-! ## Fields -/

inductive Violation
  | missing (name : String)
  | wrongType (name : String) (type : ValueType) (accepted : TypeSpec)
  | wrongValue (name text : String) (allowed : List Constraint)
  | wrongContent (name text : String) (pattern : Pattern)
  | sizeMissing (name : String)
  | sizeNotNumber (name text : String)
  /-- No member of the group covers the field. -/
  | stray (name : String)
deriving DecidableEq, Repr

namespace Violation

/-- The field that a violation is about. -/
def name : Violation → String
  | .missing name | .wrongType name .. | .wrongValue name .. | .wrongContent name ..
  | .sizeMissing name | .sizeNotNumber name _ | .stray name => name

def code : Violation → StatusCode
  | .missing _ => .missingRequiredField
  | .wrongType .. => .incorrectFieldType
  | .wrongValue .. | .sizeNotNumber .. => .incorrectFieldValue
  | .wrongContent .. => .invalidFieldValue
  | .sizeMissing _ => .messageFailedValidation
  | .stray _ => .nonAllowedField

def detail : Violation → String
  | .missing name => s!"{name} is a required field, but is missing from message"
  | .wrongType name type accepted =>
    s!"{name} has incorrect field type of {type.name}.  Valid type(s): {accepted.text}"
  | .wrongValue name text allowed =>
    let acceptable := ", ".intercalate (allowed.map Constraint.text)
    s!"{name} has incorrect value of {text}, acceptable values: {acceptable}"
  | .wrongContent name text pattern => s!"{name} has illegal {pattern.label} value of '{text}'"
  | .sizeMissing name =>
    s!"Message contains array of objects whose size is undefined: {name} cannot be found."
  | .sizeNotNumber name text =>
    s!"{name} has incorrect value of {text}, expected an array size"
  | .stray name => s!"Message contains user-defined field {name}"

/-- The status of a message with a subject and this violation. -/
def status (subject : String) (v : Violation) : Status :=
  .failure .msgError v.code s!"{subject}: Message Validation Failed.\n   {v.detail}"

end Violation

/-! ## Subjects -/

inductive SubjectFault
  | doubleDot
  | missing (element : String)
  | emptyToken (element : String)
  | badCharacters (element token : String)
  | wrongLiteral (element literal token : String)
  | otherValue (element token field value : String)
  | unlisted (element token : String) (values : List String)
  | extra (token : String)
deriving DecidableEq, Repr

namespace SubjectFault

def detail : SubjectFault → String
  | .doubleDot => "Subject cannot contain empty elements"
  | .missing element => s!"Missing required subject element \"{element}\""
  | .emptyToken element => s!"Subject element \"{element}\" is empty"
  | .badCharacters element token =>
    s!"Subject element \"{element}\" contains invalid characters: \"{token}\""
  | .wrongLiteral element literal token =>
    s!"Subject element \"{element}\" must be \"{literal}\", found \"{token}\""
  | .otherValue element token field value =>
    s!"Subject element \"{element}\" value \"{token}\" does not match field {field} " ++
      s!"value \"{value}\""
  | .unlisted element token values =>
    let listed := ", ".intercalate values
    s!"Subject element \"{element}\" value \"{token}\" is not one of: {listed}"
  | .extra token => s!"User-defined subject element value \"{token}\" is not allowed"

/-- The status of a message whose subject has this fault. -/
def status (subject : String) (f : SubjectFault) : Status :=
  .failure .msgError .invalidSubjectName s!"{subject}: Invalid Message Subject: {f.detail}"

end SubjectFault

end BusCompliance
