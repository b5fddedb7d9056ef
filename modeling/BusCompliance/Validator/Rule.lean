import BusCompliance.Validator.Chain

/-!
# Rules

Ready-made checks that look at a message in one simple way. A rule may leave a tag each time it
runs, and one kind of rule counts its runs.
-/

namespace BusCompliance

inductive Rule
  | pass
  | fail (status : Status)
  /-- Pass a number of times, then fail. Runs are counted under a key. -/
  | failAfter (key runs : Nat) (status : Status)
  /-- Fail unless the message has the field. -/
  | need (field : String) (status : Status)

/-- What rules keep: the tags left, the last one first, and how often counted rules have run. -/
structure RuleState where
  tags : List String
  runs : List (Nat × Nat)

namespace RuleState

def empty : RuleState := ⟨[], []⟩

def runsOf (s : RuleState) (key : Nat) : Nat := (s.runs.lookup key).getD 0

def leave (s : RuleState) (tag : Option String) : RuleState :=
  { s with tags := tag.toList ++ s.tags }

def count (s : RuleState) (key : Nat) : RuleState :=
  { s with runs := (key, s.runsOf key + 1) :: s.runs.filter fun r => r.1 != key }

end RuleState

/-- The status of a message by a rule, and what the rule keeps. -/
def Rule.apply (rule : Rule) (m : Message) (s : RuleState) : Status × RuleState :=
  match rule with
  | .pass => (.ok, s)
  | .fail status => (status, s)
  | .failAfter key runs status => (if s.runsOf key < runs then .ok else status, s.count key)
  | .need field status => (if m.has field then .ok else status, s)

/-- The validator of a rule, over a state that has the rules' own beside it. -/
def Rule.validator {ρ : Type} (rule : Rule) (tag : Option String) : Validator (ρ × RuleState) :=
  .single fun m => fun (r, s) =>
    let (status, s) := rule.apply m (s.leave tag)
    pure (status, (r, s))

end BusCompliance
