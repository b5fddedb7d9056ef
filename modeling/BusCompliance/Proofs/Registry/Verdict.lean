import BusCompliance.Factory
import BusCompliance.Proofs.Compliance.Checker
import BusCompliance.Proofs.Compliance.Congruence
import BusCompliance.Proofs.Registry.Deduction
import BusCompliance.Proofs.Wire.JsonRoundTrip
import BusCompliance.Proofs.Wire.XmlRoundTrip

/-!
# Verdicts survive the wire

A message that is written under the subject that its registry gives it, and read by the same
registry, may come back with a binding and a subject that it did not have. The check gives it the
same status all the same.
-/

namespace BusCompliance

/-! ## Subjects -/

theorem Message.underSubject_ok {m : Message} {s : String}
    (hs : s = "" ∨ Text.allBlank s = false) :
    ∃ q, m.underSubject s = .ok q ∧ q.kind = m.kind ∧ q.fields = m.fields ∧ q.binding = none ∧
      q.subject = if s = "" then none else some s := by
  unfold underSubject
  by_cases hempty : s = ""
  · rw [if_pos hempty, if_pos hempty]
    exact ⟨_, rfl, rfl, rfl, rfl, rfl⟩
  · have hfilled : Text.allBlank s = false := hs.resolve_left hempty
    rw [if_neg hempty, if_neg hempty, setSubject, dif_pos hfilled]
    exact ⟨_, rfl, rfl, rfl, rfl, rfl⟩

namespace Registry

variable {r : Registry} {m q : Message} {t : Template} {id : String}

theorem outcome_readMessage {text : String} (h : (Wire.messageOfText text).outcome = .ok q) :
    (r.readMessage text).outcome = .ok (r.bindDeduced q).value := by
  unfold readMessage
  rw [Action.outcome_bind, h]
  rfl

theorem subjectOf_built (hsubject : m.subject = none) (hid : r.schemaIdOf m = some id)
    (hfound : (r.findTemplate id).outcome = .ok t) : (r.subjectOf m).value = t.buildSubject m := by
  unfold subjectOf
  simp only [hsubject, hid, Logged.value_bind]
  unfold Action.outcome at hfound
  rw [hfound]
  rfl

theorem subjectOf_unbuilt (hnone : ∀ id, r.schemaIdOf m = some id →
    ∃ e, (r.findTemplate id).outcome = .error e) :
    (r.subjectOf m).value = m.subject.getD "" := by
  unfold subjectOf
  cases hs : m.subject with
  | some s => rfl
  | none =>
    cases hid : r.schemaIdOf m with
    | none => rfl
    | some id =>
      obtain ⟨e, he⟩ := hnone id hid
      unfold Action.outcome at he
      simp only [Logged.value_bind, he]
      rfl

theorem subjectOf_own {s : String} (hsubject : m.subject = some s) :
    (r.subjectOf m).value = s := by
  unfold subjectOf
  rw [hsubject]
  rfl

/-! ## Bindings -/

theorem not_found
    (h : ¬∃ id t, r.deduceSchemaId m = some id ∧ (r.findTemplate id).outcome = .ok t) :
    ∀ id, r.deduceSchemaId m = some id → ∃ e, (r.findTemplate id).outcome = .error e := by
  intro id hid
  cases hfound : (r.findTemplate id).outcome with
  | error e => exact ⟨e, rfl⟩
  | ok t => exact absurd ⟨id, t, hid, hfound⟩ h

theorem bindDeduced_found (hid : r.deduceSchemaId m = some id)
    (hfound : (r.findTemplate id).outcome = .ok t) :
    (r.bindDeduced m).value = m.bind (r.bindingOf t) := by
  unfold bindDeduced
  unfold Action.outcome at hfound
  simp only [hid, Logged.value_bind, hfound]
  rfl

theorem bindDeduced_unfound (hnone : ∀ id, r.deduceSchemaId m = some id →
    ∃ e, (r.findTemplate id).outcome = .error e) : (r.bindDeduced m).value = m := by
  unfold bindDeduced
  cases hid : r.deduceSchemaId m with
  | none => rfl
  | some id =>
    obtain ⟨e, he⟩ := hnone id hid
    unfold Action.outcome at he
    simp only [Logged.value_bind, he]
    rfl

theorem bindDeduced_keeps (r : Registry) (m : Message) :
    (r.bindDeduced m).value.kind = m.kind ∧ (r.bindDeduced m).value.fields = m.fields ∧
      (r.bindDeduced m).value.subject = m.subject := by
  by_cases hdeduced : ∃ id t, r.deduceSchemaId m = some id ∧ (r.findTemplate id).outcome = .ok t
  · obtain ⟨id, t, hid, hfound⟩ := hdeduced
    rw [bindDeduced_found hid hfound]
    exact ⟨rfl, rfl, rfl⟩
  · have hunfound := not_found hdeduced
    rw [bindDeduced_unfound hunfound]
    exact ⟨rfl, rfl, rfl⟩

/-! ## Statuses -/

theorem validate_found (hid : r.schemaIdOf m = some id)
    (hfound : (r.findTemplate id).outcome = .ok t) :
    (r.validate m).value = ((t.check m).value, r) := by
  rw [validate_resolved (resolve_found hid hfound)]

theorem validate_bindDeduced (hid : r.deduceSchemaId q = some id)
    (hfound : (r.findTemplate id).outcome = .ok t)
    (hown : (r.findTemplate t.id).outcome = .ok t) :
    (r.validate (r.bindDeduced q).value).value = ((t.check q).value, r) := by
  have hfields : (q.bind (r.bindingOf t)).fields = q.fields := rfl
  have hsubject : t.subjectFor (q.bind (r.bindingOf t)) = t.subjectFor q := by
    unfold Template.subjectFor
    rw [Template.buildSubject_congr hfields]
    rfl
  have hschema : r.schemaIdOf (q.bind (r.bindingOf t)) = some t.id := rfl
  rw [bindDeduced_found hid hfound, validate_found hschema hown,
    Template.check_congr hfields hsubject]

/-! ## The theorem -/

/-- The message has no binding, or the one that a look-up of its deduced id gives. -/
def IsBoundAsDeduced (r : Registry) (m : Message) : Prop :=
  m.binding = none ∨ ∃ id t, r.deduceSchemaId m = some id ∧
    (r.findTemplate id).outcome = .ok t ∧ m.schemaId? = some t.id

theorem schemaIdOf_found (hbound : r.IsBoundAsDeduced m) (hid : r.deduceSchemaId m = some id)
    (hfound : (r.findTemplate id).outcome = .ok t)
    (hown : (r.findTemplate t.id).outcome = .ok t) :
    ∃ id', r.schemaIdOf m = some id' ∧ (r.findTemplate id').outcome = .ok t := by
  rcases hbound with hnone | ⟨id', t', hid', hfound', hschema⟩
  · refine ⟨id, ?_, hfound⟩
    unfold schemaIdOf Message.schemaId?
    rw [hnone, hid]
    rfl
  · have hsame : id' = id := Option.some.inj (hid'.symm.trans hid)
    subst hsame
    have ht : t' = t := Except.ok.inj (hfound'.symm.trans hfound)
    subst ht
    refine ⟨t'.id, ?_, hown⟩
    unfold schemaIdOf
    rw [hschema]
    rfl

theorem validate_reread (hids : ∀ id ∈ r.schemaIds, Text.allBlank id = false ∧ ¬r.IsQualified id)
    (hbound : r.IsBoundAsDeduced m) (hkind : q.kind = m.kind) (hfields : q.fields = m.fields)
    (hunbound : q.binding = none)
    (hsubject : q.subject =
      if (r.subjectOf m).value = "" then none else some (r.subjectOf m).value) :
    (r.validate (r.bindDeduced q).value).value = (r.validate m).value := by
  have hown : ∀ s, m.subject = some s → q.subject = some s := by
    intro s hs
    rw [hsubject, subjectOf_own hs, if_neg (Message.subject_ne_empty hs)]
  by_cases hdeduced : ∃ id t, r.deduceSchemaId m = some id ∧ (r.findTemplate id).outcome = .ok t
  · obtain ⟨id, t, hid, hfound⟩ := hdeduced
    have hlisted := listed_of_findTemplate hfound
    obtain ⟨hfilled, hplain⟩ := hids t.id (mem_schemaIds hlisted)
    have htemplate : (r.findTemplate t.id).outcome = .ok t := by
      rw [findTemplate_listed hlisted hfilled hplain]
      rfl
    obtain ⟨id', hschema, hfound'⟩ := schemaIdOf_found hbound hid hfound htemplate
    -- the subject that was built is the one that the template would build again
    have hsame : t.subjectFor q = t.subjectFor m := by
      unfold Template.subjectFor
      cases hs : m.subject with
      | some s => rw [hown s hs, Option.getD_some, Option.getD_some]
      | none =>
        rw [hsubject, subjectOf_built hs hschema hfound', Template.buildSubject_congr hfields]
        split
        · rfl
        · rfl
    rw [validate_bindDeduced (deduceSchemaId_congr hfields hown hid) hfound htemplate,
      validate_found hschema hfound', Template.check_congr hfields hsame]
  · have hnone : m.binding = none := by
      rcases hbound with hnone | ⟨id, t, hid, hfound, _⟩
      · exact hnone
      · exact absurd ⟨id, t, hid, hfound⟩ hdeduced
    have hunfound := not_found hdeduced
    have hschema : r.schemaIdOf m = r.deduceSchemaId m := by
      unfold schemaIdOf Message.schemaId?
      rw [hnone]
      rfl
    have hqs : q.subject = m.subject := by
      rw [hsubject, subjectOf_unbuilt (by rw [hschema]; exact hunfound)]
      cases hs : m.subject with
      | none => rfl
      | some s => exact if_neg (Message.subject_ne_empty hs)
    have hq : q = m := Message.ext_parts hkind hqs hfields (hunbound.trans hnone.symm)
    rw [hq, bindDeduced_unfound hunfound]

/-- A message that is written in either format is read back with its kind, its fields and the
subject of the registry, and the check says the same of it. -/
theorem validate_readMessage (r : Registry) (m : Message)
    (hids : ∀ id ∈ r.schemaIds, Text.allBlank id = false ∧ ¬r.IsQualified id)
    (hbound : r.IsBoundAsDeduced m)
    (hsubject : (r.subjectOf m).value = "" ∨ Text.allBlank (r.subjectOf m).value = false)
    (text : String) (hwritten : text = (r.toXml m).value ∨ text = (r.toJson m).value) :
    ∃ p, (r.readMessage text).outcome = .ok p ∧ p.kind = m.kind ∧ p.fields = m.fields ∧
      p.subject = (if (r.subjectOf m).value = "" then none else some (r.subjectOf m).value) ∧
      (r.validate p).value = (r.validate m).value := by
  obtain ⟨q, hq, hkind, hfields, hunbound, hqs⟩ := Message.underSubject_ok hsubject
  have hread : (Wire.messageOfText text).outcome = .ok q := by
    rcases hwritten with rfl | rfl
    · exact (Wire.messageOfText_messageToXmlAs m _).trans hq
    · exact (Wire.messageOfText_messageToJsonAs m _).trans hq
  obtain ⟨hkind', hfields', hsubject'⟩ := bindDeduced_keeps r q
  refine ⟨(r.bindDeduced q).value, outcome_readMessage hread, ?_, ?_, ?_, ?_⟩
  · rw [hkind', hkind]
  · rw [hfields', hfields]
  · rw [hsubject', hqs]
  · exact validate_reread hids hbound hkind hfields hunbound hqs

/-- A registry of one schema, whose id and subject are the value of the field TYPE. -/
def heartbeats : Registry where
  version := 201900
  level := .base
  source := ""
  headers := [⟨"BASE", [], [⟨"TYPE", .field ["TYPE"], false⟩]⟩]
  definitions := [⟨headerId, 0, ["TYPE"]⟩]
  aliases := .empty
  templates := .ofList [{
    id := "HB"
    level := .base
    description := ""
    subject := [⟨"TYPE", .field ["TYPE"], false⟩]
    fields := [.new "TYPE" (.oneOf [.string]) .required] }]
  learns := false

def heartbeat : Message := (Message.new .publish).add ⟨"TYPE", .string "HB", by decide⟩

/-- A heartbeat that is read back gets a binding and a subject, and is as compliant as before. -/
theorem validate_readMessage_heartbeat :
    ∃ p, (heartbeats.readMessage (heartbeats.toXml heartbeat).value).outcome = .ok p ∧
      p.kind = heartbeat.kind ∧ p.fields = heartbeat.fields ∧ p.subject = some "HB" ∧
      (heartbeats.validate p).value = (heartbeats.validate heartbeat).value := by
  have hsubject : (heartbeats.subjectOf heartbeat).value = "HB" := by decide +kernel
  have hids : ∀ id ∈ heartbeats.schemaIds,
      Text.allBlank id = false ∧ ¬heartbeats.IsQualified id := by
    intro id hid
    have hlisted : heartbeats.schemaIds = ["HB"] := by decide +kernel
    rw [hlisted, List.mem_singleton] at hid
    subst hid
    refine ⟨by decide, ?_⟩
    rintro ⟨h, _, level, rest, _, he⟩
    have hfolder : (versionFolder heartbeats.version).toList = "2019.00".toList := by
      decide +kernel
    have hhead := congrArg (fun s => s.toList.head?) he
    simp [hfolder] at hhead
  have hread := validate_readMessage heartbeats heartbeat hids (.inl rfl)
    (.inr (by rw [hsubject]; decide)) _ (.inl rfl)
  rw [hsubject] at hread
  exact hread

end Registry

end BusCompliance
