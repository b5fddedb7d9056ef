import BusCompliance.Proofs.Wire.JsonSpelling
import BusCompliance.Wire.Format

/-!
# Messages survive JSON

A message written as JSON is read back as the same message, its floats bit for bit. What is written
is the document in the plain spelling, so its reading is that of documents in any spelling.
-/

namespace BusCompliance.Wire

/-! ## What is written -/

namespace StatedField

def members (s : StatedField) : List (String × Json.Value) :=
  [("NAME", .string s.name), ("TYPE", .string s.typeName)] ++
    s.bits.elim [] (fun bits => [("BITS", .string bits)]) ++ [("VALUE", .string s.text)]

/-- The object that states a field. -/
def json (s : StatedField) : Json.Value := .object s.members

theorem fits_json (s : StatedField) (n : Nat) : s.json.Fits (n + 1) := s.fits_jsonIn .plain n

end StatedField

def messageMembers (m : Message) (subject : String) : List (String × Json.Value) :=
  let fields := m.fields.toList.map jsonField
  [("SUBJECT", .string subject), ("KIND", .string m.kind.name)] ++
    (if fields.isEmpty then [] else [("FIELD", .array fields)])

theorem jsonMessage_eq (m : Message) (subject : String) :
    jsonMessage m subject = .object [("MESSAGE", .object (messageMembers m subject))] := rfl

theorem jsonMessageIn_plain (m : Message) (subject : String) :
    jsonMessageIn .plain (fun _ => .plain) m subject = jsonMessage m subject := rfl

/-! ## It is read -/

/-- The object of a stated field is read as the field, or its fault is reported. -/
theorem fieldOfValue_json (s : StatedField) : fieldOfValue s.json = s.read :=
  fieldOfValue_jsonIn .plain s

theorem messageOfJson_messageToJsonAs (m : Message) (subject : String) :
    messageOfJson (messageToJsonAs m subject) = m.underSubject subject := by
  rw [messageToJsonAs, ← jsonMessageIn_plain, messageOfJson_jsonMessageIn]

theorem detect?_messageToJsonAs (m : Message) (subject : String) :
    Format.detect? (messageToJsonAs m subject) = some .json := by
  have hblank : Text.isBlank '\x7b' = false := by decide
  rw [Format.detect?, messageToJsonAs, String.toList_ofList, jsonMessage_eq, Json.Value.render,
    List.cons_append, Text.trimStartChars_of_head hblank]
  rfl

/-- A message written as JSON under any subject reads back as that message under the subject. -/
theorem messageOfText_messageToJsonAs (m : Message) (subject : String) :
    (messageOfText (messageToJsonAs m subject)).outcome = m.underSubject subject := by
  rw [messageOfText, detect?_messageToJsonAs, ← messageOfJson_messageToJsonAs]
  exact Action.outcome_ofExcept _

/-- JSON round trip: a message comes back with its kind, its subject and all its fields, and
without its schema. -/
theorem messageOfText_messageToJson (m : Message) :
    (messageOfText (messageToJson m)).outcome = .ok m.unbound := by
  rw [messageToJson, messageOfText_messageToJsonAs, Message.underSubject_own]

end BusCompliance.Wire
