import BusCompliance.Event
import BusCompliance.Message
import BusCompliance.Wire.Value
import BusCompliance.Xml.Token

/-!
# XML documents

A message as a MESSAGE element with a FIELD element for each field. Reading goes through the tokens
once, and letter case in the names of elements and attributes does not matter.
-/

namespace BusCompliance.Wire

/-! ## Writing -/

/-- An attribute with the blank before it. -/
def xmlAttribute (name value : String) : List Char :=
  ' ' :: name.toList ++ "=\"".toList ++ Xml.escape value.toList ++ ['\"']

def xmlFieldChars (f : Field) : List Char :=
  "<FIELD".toList ++ xmlAttribute "NAME" f.name ++ xmlAttribute "TYPE" f.type.name ++
    (f.value.bits?.elim [] (xmlAttribute "BITS")) ++ '>' ::
    Xml.escape f.value.wireText.toList ++ "</FIELD>".toList

/-- Fields stand on lines of their own; a message without any is one empty element. -/
def xmlMessageChars (m : Message) (subject : String) : List Char :=
  let head := "<MESSAGE".toList ++ xmlAttribute "SUBJECT" subject ++ xmlAttribute "KIND" m.kind.name
  if m.fields.toList.isEmpty then head ++ "/>".toList
  else
    let lines := m.fields.toList.flatMap fun f => '\t' :: xmlFieldChars f ++ ['\n']
    head ++ ">\n".toList ++ lines ++ "</MESSAGE>".toList

def fieldToXml (f : Field) : String := String.ofList (xmlFieldChars f)

/-- The message under a subject that need not be its own. -/
def messageToXmlAs (m : Message) (subject : String) : String :=
  String.ofList (xmlMessageChars m subject)

def messageToXml (m : Message) : String := messageToXmlAs m (m.subject.getD "")

/-! ## Reading -/

/-- A FIELD element that is still open, with its text so far. -/
structure OpenField where
  name : String
  type : ValueType
  bits : Option String
  text : List Char

/-- What the tokens so far amount to. -/
structure XmlReading where
  message : Option Message
  openField : Option OpenField
  fields : List Field

namespace XmlReading

def empty : XmlReading := ⟨none, none, []⟩

/-- The value of the first attribute of a name. -/
def attribute? (attributes : List Xml.Attribute) (name : String) : Option String :=
  (attributes.find? fun a => Text.upper a.name == name).map (·.value)

def openFieldOf (attributes : List Xml.Attribute) : Except Error OpenField :=
  match attribute? attributes "NAME" with
  | none => .error .attributeMissingName
  | some name =>
    match attribute? attributes "TYPE" with
    | none => .error (.attributeMissingType name)
    | some typeName => do
      let type ← readType typeName
      return ⟨name, type, attribute? attributes "BITS", []⟩

/-- The field of an element that is complete. -/
def finish (f : OpenField) : Except Error Field := do
  let value ← readValue f.type f.bits (String.ofList f.text)
  Field.make f.name value

def messageOf (attributes : List Xml.Attribute) : Except Error Message := do
  let kind ← (attribute? attributes "KIND").elim (.ok Kind.publish) Kind.ofName
  match attribute? attributes "SUBJECT" with
  | none | some "" => return Message.new kind
  | some subject => (Message.new kind).setSubject subject

/-- An element starts, and ends at once if it is empty. -/
def element (r : XmlReading) (name attributes : List Char) (isEmpty : Bool) :
    Except Error XmlReading :=
  match Xml.attributes attributes with
  | none => .error .malformedXml
  | some attributes =>
    if Text.sameLetters (String.ofList name) "MESSAGE" then
      if r.message.isSome then .error .nestedMessage
      else do
        let message ← messageOf attributes
        return { r with message := some message }
    else if Text.sameLetters (String.ofList name) "FIELD" then
      if r.openField.isSome then .error .nestedField
      else do
        let field ← openFieldOf attributes
        if isEmpty then
          let field ← finish field
          return { r with fields := r.fields ++ [field] }
        else return { r with openField := some field }
    else .error (.unexpectedElement (String.ofList name))

/-- Text counts inside a FIELD element only. -/
def addText (r : XmlReading) (text : List Char) : XmlReading :=
  { r with openField := r.openField.map fun f => { f with text := f.text ++ text } }

def close (r : XmlReading) (name : List Char) : Except Error XmlReading :=
  if Text.sameLetters (String.ofList name) "FIELD" then
    match r.openField with
    | none => .error .unbalancedField
    | some f => do
      let field ← finish f
      return { r with openField := none, fields := r.fields ++ [field] }
  else .ok r

/-- Entities are checked in all text, also where it does not count. -/
def step (r : XmlReading) : Xml.Token → Except Error XmlReading
  | .text raw =>
    match Xml.unescape raw with
    | none => .error .malformedXml
    | some text => .ok (r.addText text)
  | .cdata content => .ok (r.addText content)
  | .start name attributes => r.element name attributes false
  | .empty name attributes => r.element name attributes true
  | .close name => r.close name
  | .skipped => .ok r
  | .malformed => .error .malformedXml

/-- All of a text. A MESSAGE element may lack its end, a FIELD element may not. -/
def ofText (text : String) : Except Error XmlReading := do
  let r ← (Xml.tokens text.toList).foldlM step empty
  if r.openField.isSome then .error .unterminatedField else return r

end XmlReading

/-- The one field of a document without a message. -/
def fieldOfXml (text : String) : Except Error Field := do
  let r ← XmlReading.ofText text
  match r.message, r.fields with
  | none, [f] => return f
  | _, _ => .error .notOneField

/-- Put a field in, and report it if its name was taken. -/
def addReported (m : Message) (f : Field) : Action Message := do
  if m.has f.name then Action.log .duplicateField
  return m.add f

/-- The message of a document with all fields that stand in it, the last of a name winning. -/
def messageOfXml (text : String) : Action Message := do
  let r ← Action.ofExcept (XmlReading.ofText text)
  match r.message with
  | none => Action.ofExcept (.error .noMessageElement)
  | some m => r.fields.foldlM addReported m

end BusCompliance.Wire
