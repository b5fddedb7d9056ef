import BusCompliance.Event
import BusCompliance.Message

/-!
# Validators

A validator is a check of its own or a chain of validators, which run in order up to the first
error. Checks may keep state: they run over a state of type `σ`, and may report events.
-/

namespace BusCompliance

/-- A computation over a state that may report events. -/
abbrev Stateful (σ α : Type) : Type := StateT σ Logged α

inductive Validator (σ : Type)
  | single (check : Message → Stateful σ Status)
  | chain (validators : List (Validator σ))

namespace Validator

variable {σ : Type}

def report (e : Event) : Stateful σ Unit := liftM (Logged.log e)

mutual

def validate (m : Message) : Validator σ → Stateful σ Status
  | .single check => check m
  | .chain validators => validateAll m 0 validators

/-- Run the validators of a chain, of which the first has this index. What stands behind an error
does not run. -/
def validateAll (m : Message) (index : Nat) : List (Validator σ) → Stateful σ Status
  | [] => pure .ok
  | v :: vs => do
    let status ← validate m v
    if status.hasError then
      report (.validatorRejected index status.reason)
      return status
    else validateAll m (index + 1) vs

end

/-- A check that stands behind a chain and runs only if the chain passes. -/
def validateWith (m : Message) (validators : List (Validator σ))
    (last : Message → Stateful σ Status) : Stateful σ Status := do
  let status ← validateAll m 0 validators
  if status.hasError then return status else last m

end Validator

end BusCompliance
