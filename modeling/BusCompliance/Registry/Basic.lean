import BusCompliance.Schema.Document
import BusCompliance.Text.Quoted

/-!
# Registries

All that is known of one version up to one level: the layered headers, what makes up each schema
id, and a template for each schema.
-/

namespace BusCompliance

/-- The header in effect at a level: what the levels up to it say together. -/
structure Header where
  name : String
  fields : List FieldSpec
  subject : List SubjectElement

/-- The fields whose values make up a schema id at a level. -/
structure Definition where
  id : String
  level : Nat
  fields : List String
deriving DecidableEq, Repr

structure Registry where
  version : Nat
  level : SchemaLevel
  /-- Where the specification came from. -/
  source : String
  /-- The headers of all levels from the lowest on. -/
  headers : List Header
  definitions : List Definition
  /-- Short names with the ids they stand for. -/
  aliases : Roster (String × String) Prod.fst
  templates : Roster Template Template.id
  /-- Templates may be made for unknown schemas. -/
  learns : Bool

namespace Registry

def withLearning (r : Registry) (learns : Bool) : Registry := { r with learns }

def levelNames (r : Registry) : List String := r.headers.map (·.name)

/-- The header of the highest level. -/
def activeHeader? (r : Registry) : Option Header := r.headers.getLast?

def headerSpecs (r : Registry) : List FieldSpec := (r.activeHeader?.map (·.fields)).getD []

/-- The first header of a level name, in any case. -/
def headerNamed? (r : Registry) (name : String) : Option Header :=
  r.headers.find? fun h => Text.sameLetters h.name name

/-- The field names of a level's header. No key, a blank one and DEFAULT stand for the highest
level. -/
def headerFieldNames (r : Registry) (key : Option String) : Except Error (List String) :=
  let name := Text.trim (key.getD "")
  let header? :=
    if name = "" ∨ Text.sameLetters name "DEFAULT" then r.activeHeader? else r.headerNamed? name
  match header? with
  | some header => .ok (header.fields.map (·.name))
  | none => .error (.unknownSchema (key.getD ""))

/-- The ids of all templates, in order. -/
def schemaIds (r : Registry) : List String := r.templates.names

def definition? (r : Registry) (id : String) (level : Nat) : Option Definition :=
  r.definitions.find? fun d => d.id == id && d.level == level

/-- One line on what is loaded. -/
def summary (r : Registry) : String :=
  s!"SpecificationRegistry \x7b version: {r.version}, " ++
    s!"schema_level: SchemaLevel({r.level.value}), " ++
    s!"source: {Text.quoted r.source}, templates: {r.templates.size}, learn: {r.learns} \x7d"

end Registry

end BusCompliance
