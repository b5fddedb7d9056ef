import BusCompliance.Event
import BusCompliance.Registry.Basic

/-!
# Learning templates

A registry that learns makes a template for an unknown schema from the first message of it.
-/

namespace BusCompliance

namespace Registry

/-- Each field of the message is required with exactly its type. -/
def learnedSpec (f : Field) : FieldSpec :=
  { FieldSpec.new f.name (.oneOf [f.type]) .required with classification := "LEARNED" }

def learnedTemplate (r : Registry) (id : String) (m : Message) : Template where
  id := id
  level := r.level
  description := "learned from message"
  subject := []
  fields := m.fields.toList.map learnedSpec

/-- The template of an id, made from the message if there is none, and the registry that has it. -/
def learn (r : Registry) (id : String) (m : Message) : Action (Template × Registry) :=
  if !r.learns then Action.ofExcept (.error (.unknownSchema id))
  else
    match r.templates.get? id with
    | some t => pure (t, r)
    | none => do
      let t := r.learnedTemplate id m
      Action.log (.templateLearned id t.fields.length)
      return (t, { r with templates := r.templates.insert t })

end Registry

end BusCompliance
