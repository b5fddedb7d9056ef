import BusCompliance.Compliance.Checker
import BusCompliance.Cursor
import BusCompliance.Registry.Load
import BusCompliance.Validator.Chain
import BusCompliance.Wire.Format

/-!
# Message factory

Messages are made from templates, read from documents and written to them, and checked by the
validators of the factory before the compliance check. The registry may learn while it checks, so
it is no part of the factory: checks run over a registry beside the state of the validators.
-/

namespace BusCompliance

/-! ## Messages of a registry -/

namespace Registry

def bindingOf (r : Registry) (t : Template) : Binding := ⟨t.id, r.version, r.level⟩

/-- Bind a message to the schema deduced for it, if there is a template. -/
def bindDeduced (r : Registry) (m : Message) : Logged Message := do
  match r.deduceSchemaId m with
  | none => return m
  | some id =>
    match ← (r.findTemplate id).run with
    | .ok t => return m.bind (r.bindingOf t)
    | .error e =>
      Logged.log (.leftUnbound id e)
      return m

/-- The message of a document, bound to its schema. -/
def readMessage (r : Registry) (text : String) : Action Message := do
  let m ← Wire.messageOfText text
  liftM (r.bindDeduced m)

/-- The subject of a message, or the one that its template builds. -/
def subjectOf (r : Registry) (m : Message) : Logged String :=
  match m.subject with
  | some subject => pure subject
  | none =>
    match r.schemaIdOf m with
    | none => pure ""
    | some id => do
      match ← (r.findTemplate id).run with
      | .ok t => return t.buildSubject m
      | .error _ => return ""

def toXml (r : Registry) (m : Message) : Logged String := do
  return Wire.messageToXmlAs m (← r.subjectOf m)

def toJson (r : Registry) (m : Message) : Logged String := do
  return Wire.messageToJsonAs m (← r.subjectOf m)

/-- A cursor over fields told apart by the header of the highest level. -/
def fieldCursor (r : Registry) (m : Message) (selector : FieldSelector) :
    Except Error (Cursor Field) :=
  (r.headerFieldNames none).map (BusCompliance.fieldCursor m selector)

/-- The compliance check as a check over the registry. -/
def complianceCheck {σ : Type} (m : Message) : Stateful (Registry × σ) Status := fun (r, s) => do
  let (status, r) ← r.validate m
  return (status, (r, s))

end Registry

/-! ## Factories -/

/-- When a message is checked at the edge of the bus. -/
structure Toggles where
  publish : Bool
  receive : Bool
deriving DecidableEq, Repr

structure Factory (σ : Type) where
  validators : List (Validator (Registry × σ))
  /-- The check that runs behind all validators. -/
  compliance : Message → Stateful (Registry × σ) Status
  /-- Fields that every new message gets. -/
  standardFields : List Field
  toggles : Toggles

namespace Factory

variable {σ : Type}

/-- A factory without validators, whose last check is that of the registry. -/
def new (toggles : Toggles) : Factory σ := ⟨[], Registry.complianceCheck, [], toggles⟩

/-- The factory and the registry that a configuration describes. -/
def ofConfig (tree : FileTree) (config : EngineConfig) : Action (Factory σ × Registry) := do
  let r ← Registry.ofConfig tree config
  Action.log (.factoryReady r.version config.level r.learns)
  return (new ⟨config.validatePublish, config.validateReceive⟩, r)

def register (f : Factory σ) (v : Validator (Registry × σ)) : Factory σ :=
  { f with validators := f.validators ++ [v] }

/-! ## Creation -/

/-- Add the default field of a specification, if it has one. -/
def stamp (m : Message) (s : FieldSpec) : Except Error Message := do
  match ← s.defaultField with
  | some f => return m.add f
  | none => return m

/-- A new message of a template: bound to it, with the standard fields and over them the defaults of
the template. -/
def instantiate (f : Factory σ) (r : Registry) (t : Template) : Except Error Message := do
  let kind ← Kind.ofSchemaId t.id
  t.fields.foldlM stamp (((Message.new kind).bind (r.bindingOf t)).addAll f.standardFields)

def create (f : Factory σ) (r : Registry) (id : String) : Action Message := do
  let t ← r.findTemplate id
  let m ← Action.ofExcept (f.instantiate r t)
  Action.log (.messageCreated t.id m.fields.size)
  return m

/-! ## Checks -/

/-- The factory's validators, then the compliance check. -/
def isCompliant (f : Factory σ) (m : Message) : Stateful (Registry × σ) Status :=
  Validator.validateWith m f.validators f.compliance

/-- The factory's validators, then those of a narrower scope, then the compliance check. -/
def isCompliantWith (f : Factory σ) (m : Message) (inner : List (Validator (Registry × σ))) :
    Stateful (Registry × σ) Status :=
  Validator.validateWith m f.validators fun m =>
    Validator.validateWith m inner f.compliance

def enabled (f : Factory σ) : Direction → Bool
  | .publish => f.toggles.publish
  | .receive => f.toggles.receive

/-- Check a message that crosses the edge of the bus, if that is asked for. -/
def check (f : Factory σ) (direction : Direction) (m : Message) :
    Stateful (Registry × σ) Status := do
  if f.enabled direction then
    let status ← f.isCompliant m
    if status.hasError then Validator.report (.validationFailed direction status.reason)
    return status
  else return .ok

end Factory

end BusCompliance
