import BusCompliance.Registry.Basic

/-!
# Deducing schema ids

The id of a message is made up of the values of its header fields, refined step by step where the
directory says that more fields belong to it. Without the fields, the subject may give the id.
-/

namespace BusCompliance

namespace Registry

/-- The values of the named fields joined by dots, if all are there and any is asked for. -/
def joinValues (m : Message) (names : List String) : Option String :=
  if names.isEmpty then none
  else (names.mapM fun name => (m.field? name).map (·.text)).map Text.join

/-- How often an id is refined at most. -/
def maxRefinements : Nat := 8

/-- Replace an id by the one that its definition makes up, until that gives the same or nothing. -/
def refine (r : Registry) (m : Message) (level : Nat) : Nat → String → String
  | 0, id => id
  | n + 1, id =>
    match (r.definition? id level).bind fun d => joinValues m d.fields with
    | some next => if next = id then id else refine r m level n next
    | none => id

/-- The levels of a registry, the highest first. -/
def levelsDown (r : Registry) : List Nat := (List.range (r.level.value + 1)).reverse

/-- The id by the header fields. The highest level that has an entry for it refines it. -/
def deduceFromFields (r : Registry) (m : Message) : Option String := do
  let header ← r.definition? headerId r.level.value
  let base ← joinValues m header.fields
  let level? := r.levelsDown.find? fun level => (r.definition? base level).isSome
  return level?.elim base fun level => r.refine m level maxRefinements base

/-- The place of the first element that a field is bound to. -/
def elementIndex? (elements : List SubjectElement) (name : String) : Option Nat :=
  elements.findIdx? fun e =>
    match e.rule with
    | .field names => names.contains name
    | _ => false

/-- The token that stands for a field. -/
def tokenOf? (elements : List SubjectElement) (tokens : List String) (name : String) :
    Option String := do
  let token ← tokens[← elementIndex? elements name]?
  if token.isEmpty then none else return token

/-- The id by the tokens of a subject. -/
def deduceFromSubject (r : Registry) (subject : String) : Option String := do
  let definition ← r.definition? headerId r.level.value
  let header ← r.activeHeader?
  let parts ← definition.fields.mapM (tokenOf? header.subject (Text.segments subject))
  if parts.isEmpty then none else return Text.join parts

def deduceSchemaId (r : Registry) (m : Message) : Option String :=
  r.deduceFromFields m <|> m.subject.bind r.deduceFromSubject

/-- The schema that a message is bound to, else the one deduced from it. -/
def schemaIdOf (r : Registry) (m : Message) : Option String := m.schemaId? <|> r.deduceSchemaId m

end Registry

end BusCompliance
