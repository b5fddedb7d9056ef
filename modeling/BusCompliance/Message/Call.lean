import BusCompliance.Message

/-!
# Calls on a message

What a holder of a message may ask of it. A call is answered and leaves a message behind.
-/

namespace BusCompliance.Message

inductive Call
  | add (f : Field)
  | set (name : String) (value : Value)
  | clear (name : String)
  | clearAll
  | setSubject (subject : String)
  | clearSubject
  | setKind (kind : Kind)
  | bind (binding : Binding)
deriving DecidableEq

/-- A call about one field tells whether a field of that name was there. -/
abbrev Answer : Type := Except Error (Option Bool)

/-- A change that may be refused. -/
def attempt (m : Message) (told : Option Bool) : Except Error Message → Answer × Message
  | .ok changed => (.ok told, changed)
  | .error e => (.error e, m)

def call (m : Message) : Call → Answer × Message
  | .add f => (.ok (some (m.has f.name)), m.add f)
  | .set name value => m.attempt (some (m.has name)) (m.set name value)
  | .clear name => m.attempt (some (m.has name)) (m.clear name)
  | .clearAll => (.ok none, m.clearAll)
  | .setSubject subject => m.attempt none (m.setSubject subject)
  | .clearSubject => (.ok none, m.clearSubject)
  | .setKind kind => (.ok none, m.setKind kind)
  | .bind binding => (.ok none, m.bind binding)

/-- The message that calls leave behind, made one after the other. -/
def behind (m : Message) (calls : List Call) : Message := calls.foldl (fun m c => (m.call c).2) m

end BusCompliance.Message
