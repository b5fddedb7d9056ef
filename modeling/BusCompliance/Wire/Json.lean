import BusCompliance.Json.Document
import BusCompliance.Message
import BusCompliance.Wire.Value

/-!
# JSON documents

A message as an object MESSAGE whose member FIELD lists the fields. Every value is written as a
string; reading takes any scalar, and the letter case of member names does not matter.
-/

namespace BusCompliance.Wire

/-! ## Writing -/

def jsonField (f : Field) : Json.Value :=
  .object <| [("NAME", .string f.name), ("TYPE", .string f.type.name)] ++
    f.value.bits?.elim [] (fun bits => [("BITS", .string bits)]) ++
    [("VALUE", .string f.value.wireText)]

/-- A message without fields has no member for them. -/
def jsonMessage (m : Message) (subject : String) : Json.Value :=
  let fields := m.fields.toList.map jsonField
  .object [("MESSAGE", .object <|
    [("SUBJECT", .string subject), ("KIND", .string m.kind.name)] ++
      (if fields.isEmpty then [] else [("FIELD", .array fields)]))]

def fieldToJson (f : Field) : String := String.ofList (jsonField f).render

/-- The message under a subject that need not be its own. -/
def messageToJsonAs (m : Message) (subject : String) : String :=
  String.ofList (jsonMessage m subject).render

def messageToJson (m : Message) : String := messageToJsonAs m (m.subject.getD "")

/-! ## Reading -/

/-- The text of a scalar, null being the empty text. -/
def scalarText (part : JsonPart) : Json.Value → Except Error String
  | .string s => .ok s
  | .number n => .ok (String.ofList n.chars)
  | .bool b => .ok (if b then "true" else "false")
  | .null => .ok ""
  | .array _ | .object _ => .error (.notScalar part)

def asObject (part : JsonPart) : Json.Value → Except Error (List (String × Json.Value))
  | .object members => .ok members
  | _ => .error (.notObject part)

/-- The text of a member, if there is one. -/
def memberText (members : List (String × Json.Value)) (part : JsonPart) :
    Except Error (Option String) :=
  match Json.member? members part.key with
  | none => .ok none
  | some v => (scalarText part v).map some

def fieldOfMembers (members : List (String × Json.Value)) : Except Error Field := do
  match ← memberText members .name with
  | none => .error .memberMissingName
  | some name =>
    match ← memberText members .type with
    | none => .error (.memberMissingType name)
    | some typeName =>
      let type ← readType typeName
      let bits ← memberText members .bits
      if bits.isSome ∧ type.isFloat then
        let value ← readValue type bits ""
        Field.make name value
      else
        let text ← memberText members .value
        let value ← readValue type bits (text.getD "")
        Field.make name value

def fieldOfValue (v : Json.Value) : Except Error Field := do
  fieldOfMembers (← asObject .field v)

def jsonDocument (text : String) : Except Error Json.Value :=
  match Json.parse? text.toList with
  | some v => .ok v
  | none => .error .malformedJson

def fieldOfJson (text : String) : Except Error Field := do
  fieldOfValue (← jsonDocument text)

/-- The fields of a message, which may also be a single object. -/
def fieldsOf : Option Json.Value → Except Error (List Field)
  | none => .ok []
  | some (.array items) => items.mapM fieldOfValue
  | some v => (fieldOfValue v).map ([·])

def messageOfJson (text : String) : Except Error Message := do
  let root ← asObject .document (← jsonDocument text)
  match Json.member? root "MESSAGE" with
  | none => .error .noMessageObject
  | some body =>
    let members ← asObject .message body
    let kind ← (← memberText members .kind).elim (.ok Kind.publish) Kind.ofName
    let subject ← memberText members .subject
    let m ←
      match subject with
      | none | some "" => pure (Message.new kind)
      | some subject => (Message.new kind).setSubject subject
    let fields ← fieldsOf (Json.member? members "FIELD")
    return m.addAll fields

end BusCompliance.Wire
