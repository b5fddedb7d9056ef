import BusCompliance.Registry.Basic
import BusCompliance.Schema.Config
import BusCompliance.Schema.Source

/-!
# Loading a registry

A registry is built from a source in full or not at all. Documents are taken in the order the source
hands them over; headers are layered from the lowest level on, and of the documents of one schema
that of the highest level counts.
-/

namespace BusCompliance

namespace Registry

/-! ## The directory -/

/-- The name of a level. The level needs a header entry too. -/
def levelName (directory : Directory) (level : Nat) : Except Error String :=
  match directory.levelName? level with
  | none => .error (.missingLevel level)
  | some name =>
    if (directory.entry? headerId level).isNone then .error (.missingLevelHeader level)
    else .ok name

/-- The entries at the levels up to `top`. -/
def entriesUpTo (directory : Directory) (top : Nat) : List SchemaEntry :=
  directory.schemas.filter fun e => e.level ≤ top

/-- What makes up the id of an entry: its own fields, else those of its level's header. -/
def definitionOf (directory : Directory) (e : SchemaEntry) : Definition :=
  let inherited := ((directory.entry? headerId e.level).map (·.definition)).getD []
  ⟨e.id, e.level, if e.definition.isEmpty then inherited else e.definition⟩

/-! ## Documents -/

/-- A document at the level it names. -/
structure Placed where
  level : Nat
  document : SchemaDocument

/-- The documents taken so far. -/
structure Intake where
  /-- The ids and levels of all documents, also of those above the top level. -/
  seen : List (String × Nat)
  placed : List Placed

/-- One more document. Only those up to the top level have to be in the directory. -/
def Intake.take (directory : Directory) (top : Nat) (i : Intake) (name text : String) :
    Action Intake := do
  let document ← Action.ofExcept (SchemaDocument.ofText name text)
  match directory.levelOf? document.level with
  | none => Action.ofExcept (.error (.unknownLevel name document.level))
  | some level =>
    let seen := (document.id, level) :: i.seen
    if i.seen.contains (document.id, level) then
      Action.ofExcept (.error (.duplicateSchema document.id level))
    else if top < level then
      Action.log (.skippedDocument document.id level)
      return { i with seen }
    else if (directory.entry? document.id level).isNone then
      Action.ofExcept (.error (.unlistedDocument name document.id level))
    else return ⟨seen, i.placed ++ [⟨level, document⟩]⟩

/-- Every entry that has a template needs a document. -/
def checkEntry (seen : List (String × Nat)) (e : SchemaEntry) : Except Error Unit :=
  if e.definitionOnly ∨ seen.contains (e.id, e.level) then .ok ()
  else .error (.missingTemplate e.id e.level)

/-- Keep a document unless there is one of a higher level for its schema. -/
def keepHighest (kept : Roster Placed (·.document.id)) (p : Placed) :
    Roster Placed (·.document.id) :=
  match kept.get? p.document.id with
  | some q => if p.level < q.level then kept else kept.insert p
  | none => kept.insert p

/-- The documents that become templates, one for each schema. -/
def templateDocuments (placed : List Placed) : Roster Placed (·.document.id) :=
  (placed.filter fun p => !p.document.isHeader).foldl keepHighest .empty

/-! ## Headers -/

/-- Lay the header of one more level over those below. It keeps the subject from below unless it has
one of its own. -/
def addHeader (placed : List Placed) (headers : List Header) (level : Nat) (name : String) :
    Except Error (List Header) :=
  match placed.find? fun p => p.document.isHeader && p.level == level with
  | none => .error (.missingHeaderTemplate level)
  | some p => do
    let below := headers.getLast?
    let specs ← p.document.fieldSpecs
    let own ← p.document.subjectElements
    let subject := if own.isEmpty then (below.map (·.subject)).getD [] else own
    return headers ++ [⟨name, FieldSpec.overlay ((below.map (·.fields)).getD []) specs, subject⟩]

def layerHeaders (placed : List Placed) (names : List String) : Except Error (List Header) :=
  names.zipIdx.foldlM (fun headers (name, level) => addHeader placed headers level name) []

/-! ## Templates -/

/-- Give the first specification of a name a default. -/
def setDefault : List FieldSpec → String × String → List FieldSpec
  | [], _ => []
  | s :: rest, (name, text) =>
    if s.name = name then { s with default := some text } :: rest
    else s :: setDefault rest (name, text)

/-- The template of a document: the fields of the active header, with the segments of the id as
defaults of the fields that make it up, and over them the fields of the document. -/
def templateOf (active : Header) (definitions : List Definition) (p : Placed) :
    Except Error Template := do
  let id := p.document.id
  let definition? := definitions.find? fun d => d.id == id && d.level == p.level
  let names := (definition?.map (·.fields)).getD []
  let fields := (names.zip (Text.segments id)).foldl setDefault active.fields
  let own ← p.document.fieldSpecs
  let elements ← p.document.subjectElements
  let level ← SchemaLevel.ofNat p.level
  return {
    id, level
    description := p.document.description
    subject := active.subject ++ elements
    fields := FieldSpec.overlay fields own }

/-- The aliases of schemas that have a template. The highest level that declares one owns it. -/
def aliasesOf (entries : List SchemaEntry) (templates : Roster Template Template.id) :
    Roster (String × String) Prod.fst :=
  let known := entries.filter fun e => templates.contains e.id
  .ofList <| (known.mergeSort fun a b => a.level ≤ b.level).filterMap fun e =>
    e.shortName.map fun a => (a, e.id)

/-! ## Loading -/

/-- The registry that a directory and the documents taken make up. -/
def assemble (source : String) (version : Nat) (level : SchemaLevel) (directory : Directory)
    (names : List String) (i : Intake) : Except Error Registry := do
  let entries := entriesUpTo directory level.value
  entries.forM (checkEntry i.seen)
  let headers ← layerHeaders i.placed names
  let definitions := entries.map (definitionOf directory)
  let active := headers.getLast?.getD ⟨"", [], []⟩
  let templates ← (templateDocuments i.placed).toList.mapM (templateOf active definitions)
  let templates := Roster.ofList templates
  return {
    version, level, source, headers, definitions, templates
    aliases := aliasesOf entries templates
    learns := false }

def load (source : Source) (version : Nat) (level : SchemaLevel) : Action Registry := do
  let top := level.value
  let directory ← Action.ofExcept ((source.readDirectory version).bind Directory.ofText)
  let names ← Action.ofExcept ((List.range (top + 1)).mapM (levelName directory))
  let documents ← source.readDocuments version
  let intake ← documents.foldlM (fun i (name, text) => i.take directory top name text) ⟨[], []⟩
  let registry ← Action.ofExcept
    (assemble source.describe version level directory names intake)
  Action.log (.specificationLoaded source.describe version top registry.templates.size)
  return registry

/-- The source that a configuration names. -/
def sourceOf (tree : FileTree) (config : EngineConfig) : Source :=
  match config.schemaPath with
  | some root => .folder root tree
  | none => .embedded

/-- The registry that a configuration describes. -/
def ofConfig (tree : FileTree) (config : EngineConfig) : Action Registry := do
  let level ← Action.ofExcept config.schemaLevel
  let registry ← load (sourceOf tree config) config.version.resolve level
  return registry.withLearning config.learn

end Registry

end BusCompliance
