import BusCompliance.Proofs.Registry.Listed

/-!
# Validating twice

A message that is validated a second time gets the same status, and then the registry stays as it
is. A template that the first validation taught is either found by the second one, or, where the id
is taken for a qualified one, still listed under the id, which keeps it from being taught anew.
-/

namespace BusCompliance.Registry

variable {r r' : Registry} {m : Message} {s : Status}

/-! ## Reached registries -/

/-- The registries that loading, a choice of policy, validations and lessons lead to. -/
inductive Reached : Registry → Prop
  | loaded {source : Source} {version : Nat} {level : SchemaLevel} {r : Registry}
      (hload : (load source version level).outcome = .ok r) : Reached r
  | policy {r : Registry} (h : Reached r) (learns : Bool) : Reached (r.withLearning learns)
  | validated {r : Registry} (h : Reached r) (m : Message) : Reached (r.validate m).value.2
  | taught {r r' : Registry} {id : String} {m : Message} {t : Template} (h : Reached r)
      (hlearn : (r.learn id m).outcome = .ok (t, r')) : Reached r'

theorem learn_adds {id : String} {t : Template} (h : (r.learn id m).outcome = .ok (t, r')) :
    r' = r ∨ r' = r.withTemplate t := by
  cases hlearns : r.learns with
  | false =>
    unfold learn at h
    rw [if_pos (by simp [hlearns])] at h
    cases h
  | true =>
    rw [outcome_learn hlearns] at h
    split at h
    · cases h
      exact .inl rfl
    · cases h
      exact .inr rfl

/-- No step takes away a template that an alias stands for. -/
theorem Reached.aliasesListed (h : Reached r) : r.AliasesListed := by
  induction h with
  | loaded hload => exact aliasesListed_load hload
  | policy _ learns ih => exact ih.withLearning learns
  | validated _ m ih => exact (validates_validate _ m).aliasesListed ih
  | taught _ hlearn ih =>
    rcases learn_adds hlearn with rfl | rfl
    · exact ih
    · exact ih.withTemplate _

/-! ## The second validation -/

theorem mem_schemaIds_withTemplate (r : Registry) (t : Template) :
    t.id ∈ (r.withTemplate t).schemaIds :=
  mem_schemaIds_iff.mpr ⟨t, (get?_withTemplate r t t.id).trans (if_pos rfl)⟩

/-- The course of a first validation decides that of a second one. -/
theorem Validates.repeated (h : Validates r m s r') (haliases : r.AliasesListed) :
    Validates r' m s r' := by
  have hcourse := h
  cases h with
  | noSchema => exact hcourse
  | found => exact hcourse
  | refused => exact hcourse
  | known => exact hcourse
  | @learned id hid herror hlearns hnew =>
    have hfind := hcourse.findTemplate_learned haliases hid (get?_eq_none_iff.mp hnew)
      (mem_schemaIds_withTemplate r (r.learnedTemplate id m))
    split at hfind
    · exact .found hid hfind
    · -- the id is looked up by what it qualifies, but listed as it stands
      exact .known hid hfind hlearns ((get?_withTemplate r _ id).trans (if_pos rfl))

/-- A validation that is repeated has the same status, and leaves the registry as the first one left
it. -/
theorem validate_idempotent (h : Reached r) (m : Message) :
    ((r.validate m).value.2.validate m).value = (r.validate m).value := by
  have hrepeated := (validates_validate r m).repeated h.aliasesListed
  exact hrepeated.value_eq

theorem load_taught : ∃ r, (load headerSource 201900 .base).outcome = .ok r ∧
    decide (((r.withLearning true).validate (messageOf "2019.00.L.X")).value.2.schemaIds =
        ["2019.00.L.X"] ∧
      ((r.withLearning true).validate (messageOf "2019.00.L.X")).value.2.unqualified
        "2019.00.L.X" = "X") = true :=
  exists_load (by decide +kernel)

/-- The first validation teaches an id that no look-up finds, and the second one takes it from the
list. -/
theorem validate_idempotent_qualified : ∃ r, Reached r ∧
    let m := messageOf "2019.00.L.X"
    (r.validate m).value.2.schemaIds = ["2019.00.L.X"] ∧
    (r.validate m).value.2.unqualified "2019.00.L.X" = "X" ∧
    ((r.validate m).value.2.validate m).value = (r.validate m).value := by
  obtain ⟨r, hload, hfacts⟩ := load_taught
  obtain ⟨hids, hbare⟩ := of_decide_eq_true hfacts
  have hreached : Reached (r.withLearning true) := .policy (.loaded hload) true
  exact ⟨_, hreached, hids, hbare, validate_idempotent hreached (messageOf "2019.00.L.X")⟩

end BusCompliance.Registry
