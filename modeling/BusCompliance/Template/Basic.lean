import BusCompliance.Message
import BusCompliance.Template.FieldSpec
import BusCompliance.Template.Subject

/-!
# Templates

A template is one schema: the elements of its subject and the specifications of its fields.
-/

namespace BusCompliance

structure Template where
  id : String
  /-- The level that defines the schema. -/
  level : SchemaLevel
  description : String
  subject : List SubjectElement
  fields : List FieldSpec

namespace Template

/-- The first specification of a name. -/
def fieldSpec? (t : Template) (name : String) : Option FieldSpec :=
  t.fields.find? fun s => s.name == name

/-! ## Subjects -/

/-- The first of the named fields that the message has. -/
def boundField? (m : Message) (names : List String) : Option Field := names.findSome? m.field?

/-- The token that an element has for a message, if it has one: literals stand for themselves, and
field values are written in capitals. -/
def token? (m : Message) (e : SubjectElement) : Option String :=
  match e.rule with
  | .literal text => some text
  | .field names => (boundField? m names).map fun f => Text.upper f.text
  | .variable _ => none

/-- The tokens from the left, without the optional elements at the end that have none. -/
def tokens (m : Message) : List SubjectElement → List String
  | [] => []
  | e :: es =>
    match token? m e, tokens m es with
    | some token, rest => token :: rest
    | none, [] => if e.optional then [] else [fillToken]
    | none, rest => fillToken :: rest

/-- The subject of a message by its template. -/
def buildSubject (t : Template) (m : Message) : String := Text.join (tokens m t.subject)

end Template

end BusCompliance
