import BusCompliance.Proofs.Registry.Learning

/-!
# Listed ids

A registry lists the ids under which its templates stand, but looks an id up by what it qualifies,
and a blank one not at all. So a listed id finds its own template unless it is blank or begins with
the version and a level of the registry. This goes for an id that was just learned, too.
-/

namespace BusCompliance.Registry

variable {r : Registry} {m : Message} {id : String} {t : Template}

theorem mem_schemaIds_iff : id ∈ r.schemaIds ↔ ∃ t, r.templates.get? id = some t := by
  constructor
  · intro h
    obtain ⟨t, ht, rfl⟩ := List.mem_map.mp h
    exact ⟨t, Roster.get?_of_mem ht⟩
  · rintro ⟨t, ht⟩
    exact List.mem_map.mpr ⟨t, Roster.mem_of_get? ht, Roster.key_of_get? ht⟩

theorem get?_eq_none_iff : r.templates.get? id = none ↔ id ∉ r.schemaIds := by
  rw [mem_schemaIds_iff, Option.eq_none_iff_forall_ne_some, not_exists]

/-- The bases of what an id qualifies are too short to be the id. -/
theorem ne_of_byBase? (h : r.byBase? (r.unqualified id) = some t) : t.id ≠ id := by
  rintro rfl
  obtain ⟨base, hbase, hget⟩ := List.exists_of_findSome?_eq_some h
  rw [← Roster.key_of_get? hget] at hbase
  exact r.not_mem_bases_unqualified t.id hbase

theorem byName?_own_iff (hlisted : id ∈ r.schemaIds) {bare : String} :
    (∃ t, r.byName? bare = some t ∧ t.id = id) ↔
      bare = id ∨ bare ∉ r.schemaIds ∧ ∃ name, r.aliases.get? bare = some (name, id) := by
  unfold byName?
  constructor
  · rintro ⟨t, hname, rfl⟩
    split at hname
    · rename_i hget
      cases hname
      exact .inl (Roster.key_of_get? hget).symm
    · rename_i hget
      obtain ⟨⟨name, target⟩, halias, htarget⟩ := Option.bind_eq_some_iff.mp hname
      refine .inr ⟨get?_eq_none_iff.mp hget, name, ?_⟩
      rw [halias, ← Roster.key_of_get? htarget]
  · obtain ⟨t, ht⟩ := mem_schemaIds_iff.mp hlisted
    rintro (rfl | ⟨hunlisted, name, halias⟩)
    · rw [ht]
      exact ⟨t, rfl, Roster.key_of_get? ht⟩
    · rw [get?_eq_none_iff.mpr hunlisted, halias]
      exact ⟨t, ht, Roster.key_of_get? ht⟩

/-- A listed id finds its own template if it is what it qualifies, or if that is an alias for it. -/
theorem findTemplate_own_iff (hlisted : id ∈ r.schemaIds) :
    (∃ t, (r.findTemplate id).outcome = .ok t ∧ t.id = id) ↔
      Text.allBlank id = false ∧ (r.unqualified id = id ∨ r.unqualified id ∉ r.schemaIds ∧
        ∃ name, r.aliases.get? (r.unqualified id) = some (name, id)) := by
  rw [← byName?_own_iff hlisted]
  constructor
  · rintro ⟨t, hfound, hid⟩
    obtain ⟨hfilled, hfound⟩ := findTemplate_eq_ok_iff.mp hfound
    rcases Option.or_eq_some_iff.mp hfound with hname | ⟨-, hbase⟩
    · exact ⟨hfilled, t, hname, hid⟩
    · exact absurd hid (ne_of_byBase? hbase)
  · rintro ⟨hfilled, t, hname, hid⟩
    exact ⟨t, findTemplate_eq_ok_iff.mpr ⟨hfilled, Option.or_eq_some_iff.mpr (.inl hname)⟩, hid⟩

/-! ## Learned ids -/

variable {r' : Registry} {s : Status}

theorem byBase?_withTemplate_none (hnone : r.byBase? id = none) (hmem : t.id ∉ bases id) :
    (r.withTemplate t).byBase? id = none := by
  refine List.findSome?_eq_none_iff.mpr ?_
  intro base hbase
  have hne : t.id ≠ base := by
    rintro rfl
    exact hmem hbase
  rw [get?_withTemplate, if_neg hne, List.findSome?_eq_none_iff.mp hnone base hbase]

/-- A template is learned under the id of the message, and looked for under what that qualifies. -/
theorem Validates.findTemplate_learned (h : Validates r m s r') (haliases : r.AliasesListed)
    (hid : r.schemaIdOf m = some id) (hnew : id ∉ r.schemaIds) (hlisted : id ∈ r'.schemaIds) :
    (r'.findTemplate id).outcome =
      if r.unqualified id = id then .ok (r.learnedTemplate id m)
      else .error (.unknownSchema id) := by
  cases h with
  | noSchema => exact absurd hlisted hnew
  | found => exact absurd hlisted hnew
  | refused => exact absurd hlisted hnew
  | known => exact absurd hlisted hnew
  | learned hid' herror hlearns hget =>
    cases hid'.symm.trans hid
    split
    · rename_i hbare
      obtain ⟨hfilled, -, -⟩ := unfound_of_unknown herror
      exact findTemplate_withTemplate_self (r.learnedTemplate id m) hfilled hbare
    · rename_i hbare
      obtain ⟨hfilled, hname, hbase⟩ := unfound_of_unknown herror
      refine findTemplate_eq_error_iff.mpr (.inr ⟨hfilled, Option.or_eq_none_iff.mpr ⟨?_, ?_⟩, rfl⟩)
      · exact (byName?_withTemplate haliases hget (Ne.symm hbare)).trans hname
      · exact byBase?_withTemplate_none hbase (r.not_mem_bases_unqualified id)

/-! ## Reached registries -/

/-- In a registry that was loaded and has validated messages, a listed id finds its own template if
it is filled and not taken for a qualified id of another schema. An id that the next message teaches
is found again if it is not taken for a qualified one. -/
theorem findTemplate_reached {source : Source} {version : Nat} {level : SchemaLevel} {r₀ : Registry}
    (hload : (load source version level).outcome = .ok r₀) (learns : Bool) (ms : List Message) :
    let r := (r₀.withLearning learns).validateAll ms
    (∀ id ∈ r.schemaIds, (∃ t, (r.findTemplate id).outcome = .ok t ∧ t.id = id) ↔
      Text.allBlank id = false ∧ (r.unqualified id = id ∨ r.unqualified id ∉ r.schemaIds ∧
        ∃ name, r.aliases.get? (r.unqualified id) = some (name, id))) ∧
    ∀ m id, r.schemaIdOf m = some id → id ∉ r.schemaIds → id ∈ (r.validate m).value.2.schemaIds →
      ((r.validate m).value.2.findTemplate id).outcome =
        if r.unqualified id = id then .ok (r.learnedTemplate id m)
        else .error (.unknownSchema id) := by
  intro r
  have haliases : r.AliasesListed :=
    aliasesListed_validateAll ((aliasesListed_load hload).withLearning learns) ms
  refine ⟨fun id hlisted => findTemplate_own_iff hlisted, ?_⟩
  intro m id hid hnew hlisted
  exact (validates_validate r m).findTemplate_learned haliases hid hnew hlisted

theorem load_qualified : ∃ r₀, (load headerSource 201900 .base).outcome = .ok r₀ ∧
    let r := (r₀.withLearning true).validateAll [messageOf "B"]
    let m := messageOf "2019.00.L.X"
    decide ("B" ∈ r.schemaIds ∧ r.unqualified "B" = "B" ∧ r.schemaIdOf m = some "2019.00.L.X" ∧
      "2019.00.L.X" ∉ r.schemaIds ∧ "2019.00.L.X" ∈ (r.validate m).value.2.schemaIds ∧
      r.unqualified "2019.00.L.X" = "X") = true :=
  exists_load (by decide +kernel)

/-- The id B is learned and found again; the id 2019.00.L.X is learned and not found again. -/
theorem findTemplate_reached_qualified : ∃ r₀, (load headerSource 201900 .base).outcome = .ok r₀ ∧
    let r := (r₀.withLearning true).validateAll [messageOf "B"]
    let r' := (r.validate (messageOf "2019.00.L.X")).value.2
    (∃ t, (r.findTemplate "B").outcome = .ok t ∧ t.id = "B") ∧
    (r'.findTemplate "2019.00.L.X").outcome = .error (.unknownSchema "2019.00.L.X") := by
  obtain ⟨r₀, hload, hfacts⟩ := load_qualified
  obtain ⟨hB, hbareB, hid, hnew, hlisted, hbare⟩ := of_decide_eq_true hfacts
  obtain ⟨hown, hlearned⟩ := findTemplate_reached hload true [messageOf "B"]
  refine ⟨r₀, hload, (hown "B" hB).mpr ⟨by decide, .inl hbareB⟩, ?_⟩
  rw [hlearned _ "2019.00.L.X" hid hnew hlisted, if_neg (by rw [hbare]; decide)]

/-- An id can be listed, though no look-up of it succeeds. -/
theorem exists_listed_unfound : ∃ r₀ ms id, (load headerSource 201900 .base).outcome = .ok r₀ ∧
    id ∈ ((r₀.withLearning true).validateAll ms).schemaIds ∧
    (((r₀.withLearning true).validateAll ms).findTemplate id).outcome =
      .error (.unknownSchema id) := by
  obtain ⟨r₀, hload, hfacts⟩ := load_qualified
  obtain ⟨-, -, hid, hnew, hlisted, hbare⟩ := of_decide_eq_true hfacts
  have haliases := aliasesListed_validateAll ((aliasesListed_load hload).withLearning true)
    [messageOf "B"]
  refine ⟨r₀, [messageOf "B", messageOf "2019.00.L.X"], "2019.00.L.X", hload, hlisted, ?_⟩
  have hlearned := (validates_validate _ (messageOf "2019.00.L.X")).findTemplate_learned haliases
    hid hnew hlisted
  rwa [if_neg (by rw [hbare]; decide)] at hlearned

end BusCompliance.Registry
