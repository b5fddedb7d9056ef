import BusCompliance.Field
import BusCompliance.Roster
import BusCompliance.SchemaLevel
import BusCompliance.Text.Dotted

/-!
# Messages

A message has a kind, an optional subject and fields of distinct names, kept in the order of the
names. One that was built from a template, or recognised by one, is bound to its schema.
-/

namespace BusCompliance

/-! ## Kinds -/

inductive Kind
  | publish
  | request
  | reply
deriving DecidableEq, Repr

namespace Kind

def all : List Kind := [.publish, .request, .reply]

def name : Kind → String
  | .publish => "PUBLISH"
  | .request => "REQUEST"
  | .reply => "REPLY"

/-- The kind of a name, in any case and with blanks around it. -/
def ofName? (text : String) : Option Kind :=
  all.find? fun k => k.name == Text.upper (Text.trim text)

def ofName (text : String) : Except Error Kind :=
  match ofName? text with
  | some kind => .ok kind
  | none => .error (.unknownKind text)

/-- The kind that the first segment of a schema id stands for. -/
def ofSchemaId (id : String) : Except Error Kind :=
  match (Text.segments id).head? with
  | some "MSG" => .ok .publish
  | some "REQ" => .ok .request
  | some "RESP" => .ok .reply
  | _ => .error (.undeducibleKind id)

theorem ofName?_name (k : Kind) : ofName? k.name = some k := by cases k <;> decide +kernel

/-- The name of a kind is read as that kind. -/
@[simp] theorem ofName_name (k : Kind) : ofName k.name = .ok k := by simp [ofName, ofName?_name]

end Kind

/-! ## Messages -/

/-- The schema a message belongs to, and the specification that knows it. -/
structure Binding where
  schemaId : String
  version : Nat
  level : SchemaLevel
deriving DecidableEq

/-- A subject that is set is never blank. -/
structure Message where
  kind : Kind
  subject : Option String
  fields : Roster Field Field.name
  binding : Option Binding
  subject_filled : ∀ s ∈ subject, Text.allBlank s = false
deriving DecidableEq

namespace Message

/-- A message with no subject, no fields and no schema. -/
def new (kind : Kind) : Message := ⟨kind, none, .empty, none, by simp⟩

def setSubject (m : Message) (subject : String) : Except Error Message :=
  if h : Text.allBlank subject = false then
    .ok { m with subject := some subject, subject_filled := by simpa using h }
  else .error .blankSubject

def clearSubject (m : Message) : Message := { m with subject := none, subject_filled := by simp }

def setKind (m : Message) (kind : Kind) : Message := { m with kind }

def bind (m : Message) (binding : Binding) : Message := { m with binding := some binding }

/-- The same message without its schema. -/
def unbound (m : Message) : Message := { m with binding := none }

def schemaId? (m : Message) : Option String := m.binding.map (·.schemaId)

/-! ## Fields -/

def has (m : Message) (name : String) : Bool := m.fields.contains name

def field? (m : Message) (name : String) : Option Field := m.fields.get? name

/-- Put a field in, over one of the same name. -/
def add (m : Message) (f : Field) : Message := { m with fields := m.fields.insert f }

/-- Add the fields in order, so the last of a name stays. -/
def addAll (m : Message) (fs : List Field) : Message := fs.foldl add m

def set (m : Message) (name : String) (value : Value) : Except Error Message :=
  (Field.make name value).map m.add

/-- Take a field out. A blank name is an error, an absent field is not. -/
def clear (m : Message) (name : String) : Except Error Message :=
  if Text.allBlank name then .error .blankFieldName
  else .ok { m with fields := m.fields.erase name }

def clearAll (m : Message) : Message := { m with fields := .empty }

def field (m : Message) (name : String) : Except Error Field :=
  if Text.allBlank name then .error .blankFieldName
  else
    match m.field? name with
    | some f => .ok f
    | none => .error (.fieldNotFound name)

/-- Equality with fields compared as numbers or texts. -/
def sameAs (a b : Message) : Bool :=
  a.kind == b.kind && a.subject == b.subject && a.binding == b.binding &&
    a.fields.size == b.fields.size &&
    (a.fields.toList.zip b.fields.toList).all fun (f, g) => f.sameAs g

@[simp] theorem field?_add (m : Message) (f : Field) (name : String) :
    (m.add f).field? name = if f.name = name then some f else m.field? name :=
  Roster.get?_insert m.fields f name

theorem field?_congr {m p : Message} (hfields : p.fields = m.fields) (name : String) :
    p.field? name = m.field? name := by
  unfold field?
  rw [hfields]

end Message

end BusCompliance
