import BusCompliance.Compliance.Fields
import BusCompliance.Compliance.Subject
import BusCompliance.Registry.Deduction
import BusCompliance.Registry.Learning
import BusCompliance.Registry.Lookup

/-!
# The compliance check

A message is checked by the template of its schema: its fields first, then its subject. The first
violation is the status. The check gives back the registry, which may have learned a template.
-/

namespace BusCompliance

namespace Registry

def noSchemaStatus (m : Message) : Status :=
  let subject := m.subject.getD ""
  .failure .msgError .templateIdDoesNotExist
    s!"No template available; unable to validate message [{subject}]"

/-- The template of a known id, or one that is learned for an unknown id. -/
def findOrLearn (r : Registry) (id : String) (m : Message) : Action (Template × Registry) :=
  ExceptT.mk do
    match ← (r.findTemplate id).run with
    | .ok t => return .ok (t, r)
    | .error e =>
      if e.kind = .unknownSchema ∧ r.learns then (r.learn id m).run else return .error e

/-- The template that a message is checked by, or the status of a message without one. -/
def resolve (r : Registry) (m : Message) : Logged (Except Status (Template × Registry)) :=
  match r.schemaIdOf m with
  | none => return .error (noSchemaStatus m)
  | some id => do
    match ← (r.findOrLearn id m).run with
    | .ok found => return .ok found
    | .error e => return .error (.ofError e)

end Registry

/-- The subject that a message is checked under. -/
def Template.subjectFor (t : Template) (m : Message) : String := m.subject.getD (t.buildSubject m)

/-- The status of a message by a template. -/
def Template.check (t : Template) (m : Message) : Logged Status :=
  let subject := t.subjectFor m
  match fieldViolation? m t.fields with
  | some v => do
    let status := v.status subject
    Logged.log (.fieldCheckFailed t.id status.code status.reason)
    return status
  | none =>
    match subjectFault? m t.subject subject with
    | some fault => do
      Logged.log (.subjectCheckFailed t.id subject fault.detail)
      return fault.status subject
    | none => return .ok

namespace Registry

/-- Check a message, and keep what was learned from it. -/
def validate (r : Registry) (m : Message) : Logged (Status × Registry) := do
  match ← r.resolve m with
  | .error status =>
    Logged.log (.noTemplate status.reason)
    return (status, r)
  | .ok (t, r) =>
    let status ← t.check m
    return (status, r)

end Registry

end BusCompliance
