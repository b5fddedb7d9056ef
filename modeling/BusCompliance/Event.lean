import BusCompliance.Status

/-!
# Events

What an operation reports while it runs. `Logged` pairs a value with the events on the way to it;
an `Action` may also fail, and keeps the events up to the failure.
-/

namespace BusCompliance

inductive EventLevel
  | debug
  | info
  | warn
deriving DecidableEq, Repr

def EventLevel.name : EventLevel → String
  | .debug => "DEBUG"
  | .info => "INFO"
  | .warn => "WARN"

/-- Which way a message crosses the edge of the bus. -/
inductive Direction
  | publish
  | receive
deriving DecidableEq, Repr

def Direction.name : Direction → String
  | .publish => "Publish"
  | .receive => "Receive"

inductive Event
  | readingDocument (document : String)
  | skippedDocument (id : String) (level : Nat)
  | specificationLoaded (source : String) (version level templates : Nat)
  | factoryReady (version level : Nat) (learn : Bool)
  | resolvedByBase (id resolved : String)
  | templateLearned (id : String) (fields : Nat)
  | messageCreated (id : String) (fields : Nat)
  | leftUnbound (id : String) (error : Error)
  | duplicateField
  | validatorRejected (index : Nat) (reason : String)
  | validationFailed (direction : Direction) (reason : String)
  | noTemplate (reason : String)
  | fieldCheckFailed (id : String) (code : StatusCode) (reason : String)
  | subjectCheckFailed (id subject detail : String)
deriving DecidableEq, Repr

/-- The value of a named part of an event. -/
inductive EventValue
  | number (n : Nat)
  | flag (b : Bool)
  | text (s : String)
deriving DecidableEq, Repr

namespace Event

def level : Event → EventLevel
  | .specificationLoaded .. | .factoryReady .. => .info
  | .templateLearned .. | .validationFailed .. => .warn
  | _ => .debug

def message : Event → String
  | .readingDocument _ => "reading schema document"
  | .skippedDocument .. => "skipping document above schema level"
  | .specificationLoaded .. => "specification loaded"
  | .factoryReady .. => "message factory ready"
  | .resolvedByBase .. => "schema id resolved by base id"
  | .templateLearned .. => "learned template for unknown schema id"
  | .messageCreated .. => "message created from template"
  | .leftUnbound .. => "parsed message left unbound"
  | .duplicateField => "duplicate FIELD in XML input; last occurrence kept"
  | .validatorRejected .. => "custom validator rejected message"
  | .validationFailed .. => "message failed validation"
  | .noTemplate _ => "message has no usable template"
  | .fieldCheckFailed .. => "field check failed"
  | .subjectCheckFailed .. => "subject check failed"

/-- The named parts. -/
def fields : Event → List (String × EventValue)
  | .readingDocument document => [("document", .text document)]
  | .skippedDocument id level => [("schema_id", .text id), ("level", .number level)]
  | .specificationLoaded source version level templates =>
    [("source", .text source), ("version", .number version), ("schema_level", .number level),
      ("templates", .number templates)]
  | .factoryReady version level learn =>
    [("version", .number version), ("schema_level", .number level), ("learn", .flag learn)]
  | .resolvedByBase id resolved => [("schema_id", .text id), ("resolved", .text resolved)]
  | .templateLearned id fields => [("schema_id", .text id), ("fields", .number fields)]
  | .messageCreated id fields => [("schema_id", .text id), ("fields", .number fields)]
  | .leftUnbound id error => [("schema_id", .text id), ("error", .text error.message)]
  | .duplicateField => []
  | .validatorRejected index reason => [("index", .number index), ("reason", .text reason)]
  | .validationFailed direction reason =>
    [("direction", .text direction.name), ("reason", .text reason)]
  | .noTemplate reason => [("reason", .text reason)]
  | .fieldCheckFailed id code reason =>
    [("schema_id", .text id), ("code", .text code.label), ("reason", .text reason)]
  | .subjectCheckFailed id subject detail =>
    [("schema_id", .text id), ("subject", .text subject), ("detail", .text detail)]

end Event

/-! ## Values with their events -/

structure Logged (α : Type) where
  value : α
  events : List Event

namespace Logged

instance : Monad Logged where
  pure x := ⟨x, []⟩
  bind x f := ⟨(f x.value).value, x.events ++ (f x.value).events⟩

def log (e : Event) : Logged Unit := ⟨(), [e]⟩

variable {α β : Type}

@[simp] theorem value_pure (x : α) : (pure x : Logged α).value = x := rfl

@[simp] theorem value_bind (x : Logged α) (f : α → Logged β) :
    (x >>= f).value = (f x.value).value := rfl

@[simp] theorem events_pure (x : α) : (pure x : Logged α).events = [] := rfl

@[simp] theorem events_bind (x : Logged α) (f : α → Logged β) :
    (x >>= f).events = x.events ++ (f x.value).events := rfl

end Logged

/-- A computation that reports events and may fail. -/
abbrev Action (α : Type) : Type := ExceptT Error Logged α

namespace Action

variable {α β : Type}

def log (e : Event) : Action Unit := ExceptT.lift (Logged.log e)

/-- What the action comes to, without what it reports. -/
def outcome (x : Action α) : Except Error α := x.run.value

def ofExcept (x : Except Error α) : Action α := ExceptT.mk (pure x)

@[simp] theorem outcome_pure (x : α) : outcome (pure x) = .ok x := rfl

@[simp] theorem outcome_ofExcept (x : Except Error α) : outcome (ofExcept x) = x := rfl

/-- Outcomes of a sequence follow from the outcomes of its steps. -/
@[simp] theorem outcome_bind (x : Action α) (f : α → Action β) :
    outcome (x >>= f) = (outcome x >>= fun a => outcome (f a)) := by
  show Logged.value (ExceptT.run x >>= _) = _
  rw [Logged.value_bind]
  cases h : x.run.value with
  | error e => simp only [outcome, h, ExceptT.bindCont]; rfl
  | ok a => simp only [outcome, h, ExceptT.bindCont]; rfl

@[simp] theorem outcome_log (e : Event) : outcome (log e) = .ok () := rfl

end Action

end BusCompliance
