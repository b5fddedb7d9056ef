import BusCompliance.Proofs.Outcome
import BusCompliance.Registry.Deduction

/-!
# What a deduction looks at

The id of a message comes from its fields alone when they give one, and else from its subject. So
another message with the same fields, and with the subject if there is one, gets the same id. A
message whose fields hold the segments of an id gets that id, unless a level takes it from others.
-/

namespace BusCompliance.Registry

variable {m p : Message}

theorem joinValues_congr (hfields : p.fields = m.fields) (names : List String) :
    joinValues p names = joinValues m names := by
  unfold joinValues
  simp only [Message.field?_congr hfields]

theorem refine_congr (hfields : p.fields = m.fields) (r : Registry) (level n : Nat) (id : String) :
    r.refine p level n id = r.refine m level n id := by
  induction n generalizing id with
  | zero => rfl
  | succ n ih =>
    unfold refine
    simp only [joinValues_congr hfields, ih]

theorem deduceFromFields_congr (hfields : p.fields = m.fields) (r : Registry) :
    r.deduceFromFields p = r.deduceFromFields m := by
  unfold deduceFromFields
  simp only [joinValues_congr hfields, refine_congr hfields]

/-- A subject matters to the id only where the message has one. -/
theorem deduceSchemaId_congr {r : Registry} {id : String} (hfields : p.fields = m.fields)
    (hsubject : ∀ s, m.subject = some s → p.subject = some s) (h : r.deduceSchemaId m = some id) :
    r.deduceSchemaId p = some id := by
  unfold deduceSchemaId at h ⊢
  rw [deduceFromFields_congr hfields]
  cases hdeduced : r.deduceFromFields m with
  | some base => rwa [hdeduced] at h
  | none =>
    rw [hdeduced] at h
    cases hs : m.subject with
    | none =>
      rw [hs] at h
      cases h
    | some s =>
      rw [hs] at h
      rw [hsubject s hs]
      exact h

/-! ## Messages that hold an id -/

variable {r : Registry} {id : String} {names : List String}

theorem joinValues_eq_some (h : List.Forall₂ (fun name text =>
    (m.field? name).map (·.text) = some text) names (Text.segments id)) :
    joinValues m names = some id := by
  have hne : names ≠ [] := by
    rintro rfl
    cases hsegments : Text.segments id with
    | nil => exact List.splitOn_ne_nil '.' id.toList (List.map_eq_nil_iff.mp hsegments)
    | cons text texts =>
      rw [hsegments] at h
      cases h
  unfold joinValues
  rw [mapM_eq_some_iff.mpr h, Option.map_some, Text.join_segments]
  simp [hne]

theorem refine_eq_self {level : Nat}
    (h : ∀ d, r.definition? id level = some d → joinValues m d.fields = some id) (n : Nat) :
    r.refine m level n id = id := by
  cases n with
  | zero => rfl
  | succ n =>
    unfold refine
    cases hdefinition : r.definition? id level with
    | none => rfl
    | some d =>
      rw [Option.bind_some, h d hdefinition]
      exact if_pos rfl

theorem deduceSchemaId_eq_some {header : Definition}
    (hheader : r.definition? headerId r.level.value = some header)
    (hid : joinValues m header.fields = some id)
    (hsame : ∀ level d, r.definition? id level = some d → joinValues m d.fields = some id) :
    r.deduceSchemaId m = some id := by
  have hfields : r.deduceFromFields m = some id := by
    unfold deduceFromFields
    rw [hheader, Option.bind_eq_bind, Option.bind_some, hid, Option.bind_eq_bind, Option.bind_some]
    cases r.levelsDown.find? fun level => (r.definition? id level).isSome with
    | none => rfl
    | some level => exact congrArg some (refine_eq_self (hsame level) maxRefinements)
  unfold deduceSchemaId
  rw [hfields]
  rfl

end BusCompliance.Registry
