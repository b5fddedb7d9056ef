import BusCompliance.Compliance.Checker
import BusCompliance.Proofs.Registry.Lookup

/-!
# What a validation does

A validation of a message has one of five courses. Only one of them changes the registry: it puts
in a template for the id of the message, which was not listed before. A run is one validation after
the other, each on the registry that the one before left.
-/

namespace BusCompliance.Registry

variable {r : Registry} {m : Message}

/-- The registry with one more template. -/
def withTemplate (r : Registry) (t : Template) : Registry :=
  { r with templates := r.templates.insert t }

/-- The status of a validation, and the registry after it. -/
inductive Validates (r : Registry) (m : Message) : Status → Registry → Prop
  | noSchema (hid : r.schemaIdOf m = none) : Validates r m (noSchemaStatus m) r
  | found {id : String} {t : Template} (hid : r.schemaIdOf m = some id)
      (hfound : (r.findTemplate id).outcome = .ok t) : Validates r m (t.check m).value r
  | refused {id : String} {e : Error} (hid : r.schemaIdOf m = some id)
      (herror : (r.findTemplate id).outcome = .error e)
      (hstrict : e.kind = .unknownSchema → r.learns = false) : Validates r m (.ofError e) r
  /-- The template is listed, but no look-up finds it. -/
  | known {id : String} {t : Template} (hid : r.schemaIdOf m = some id)
      (herror : (r.findTemplate id).outcome = .error (.unknownSchema id))
      (hlearns : r.learns = true) (hlisted : r.templates.get? id = some t) :
      Validates r m (t.check m).value r
  | learned {id : String} (hid : r.schemaIdOf m = some id)
      (herror : (r.findTemplate id).outcome = .error (.unknownSchema id))
      (hlearns : r.learns = true) (hnew : r.templates.get? id = none) :
      Validates r m ((r.learnedTemplate id m).check m).value
        (r.withTemplate (r.learnedTemplate id m))

/-! ## The courses -/

theorem outcome_learn (hlearns : r.learns = true) (id : String) (m : Message) :
    (r.learn id m).outcome = .ok (match r.templates.get? id with
      | some t => (t, r)
      | none => (r.learnedTemplate id m, r.withTemplate (r.learnedTemplate id m))) := by
  unfold learn
  rw [if_neg (by simp [hlearns])]
  cases r.templates.get? id with
  | some t => rfl
  | none => rfl

theorem outcome_findOrLearn (r : Registry) (id : String) (m : Message) :
    (r.findOrLearn id m).outcome =
      match (r.findTemplate id).outcome with
      | .ok t => .ok (t, r)
      | .error e =>
        if e.kind = .unknownSchema ∧ r.learns then (r.learn id m).outcome else .error e := by
  unfold findOrLearn Action.outcome
  rw [ExceptT.run_mk, Logged.value_bind]
  cases (r.findTemplate id).run.value with
  | ok t => rfl
  | error e =>
    simp only
    split
    · rfl
    · rfl

theorem value_resolve_none (hid : r.schemaIdOf m = none) :
    (r.resolve m).value = .error (noSchemaStatus m) := by
  unfold resolve
  rw [hid]
  rfl

theorem value_resolve {id : String} (hid : r.schemaIdOf m = some id) :
    (r.resolve m).value = (r.findOrLearn id m).outcome.mapError Status.ofError := by
  unfold resolve Action.outcome
  simp only [hid, Logged.value_bind]
  cases (r.findOrLearn id m).run.value with
  | ok found => rfl
  | error e => rfl

theorem value_validate (r : Registry) (m : Message) : (r.validate m).value =
    match (r.resolve m).value with
    | .ok (t, r') => ((t.check m).value, r')
    | .error status => (status, r) := by
  unfold validate
  rw [Logged.value_bind]
  cases (r.resolve m).value with
  | ok found => rfl
  | error status => rfl

theorem unknownSchema_of_kind {id : String} {e : Error}
    (herror : (r.findTemplate id).outcome = .error e) (hkind : e.kind = .unknownSchema) :
    e = .unknownSchema id := by
  rcases findTemplate_eq_error_iff.mp herror with ⟨-, rfl⟩ | ⟨-, -, rfl⟩
  · cases hkind
  · rfl

theorem validates_validate (r : Registry) (m : Message) :
    Validates r m (r.validate m).value.1 (r.validate m).value.2 := by
  rw [value_validate]
  cases hid : r.schemaIdOf m with
  | none =>
    rw [value_resolve_none hid]
    exact .noSchema hid
  | some id =>
    rw [value_resolve hid, outcome_findOrLearn]
    cases hfind : (r.findTemplate id).outcome with
    | ok t => exact .found hid hfind
    | error e =>
      by_cases hlearn : e.kind = .unknownSchema ∧ r.learns = true
      · obtain ⟨hkind, hlearns⟩ := hlearn
        rw [unknownSchema_of_kind hfind hkind] at hfind
        simp only [hkind, hlearns, and_self, if_true, outcome_learn hlearns]
        cases hlisted : r.templates.get? id with
        | some t => exact .known hid hfind hlearns hlisted
        | none => exact .learned hid hfind hlearns hlisted
      · simp only [hlearn, if_false]
        refine .refused hid hfind ?_
        intro hkind
        exact Bool.eq_false_iff.mpr fun hlearns => hlearn ⟨hkind, hlearns⟩

/-- The course of a validation decides its outcome. -/
theorem Validates.value_eq {s : Status} {r' : Registry} (h : Validates r m s r') :
    (r.validate m).value = (s, r') := by
  rw [value_validate]
  cases h with
  | noSchema hid =>
    rw [value_resolve_none hid]
  | found hid hfound =>
    rw [value_resolve hid, outcome_findOrLearn, hfound]
    rfl
  | refused hid herror hstrict =>
    rw [value_resolve hid, outcome_findOrLearn, herror]
    simp only
    rw [if_neg]
    · rfl
    · rintro ⟨hkind, hlearns⟩
      rw [hstrict hkind] at hlearns
      cases hlearns
  | known hid herror hlearns hlisted =>
    rw [value_resolve hid, outcome_findOrLearn, herror]
    simp only [hlearns, Error.kind, and_self, if_true, outcome_learn hlearns, hlisted]
    rfl
  | learned hid herror hlearns hnew =>
    rw [value_resolve hid, outcome_findOrLearn, herror]
    simp only [hlearns, Error.kind, and_self, if_true, outcome_learn hlearns, hnew]
    rfl

/-! ## Runs -/

/-- The registry after validations of messages, one after the other. -/
def validateAll (r : Registry) (ms : List Message) : Registry :=
  ms.foldl (fun r m => (r.validate m).value.2) r

end BusCompliance.Registry
