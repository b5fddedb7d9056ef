import BusCompliance.Proofs.Compliance.Checker
import BusCompliance.Proofs.Compliance.Congruence

/-!
# Fields that do not matter

A message that is bound to a schema is judged by the fields that the template of the schema names.
Whatever else two such messages hold, and of whatever kind they are, they get the same status.
-/

namespace BusCompliance

/-- The names of fields that matter to a template: those of its fields, the sizes of its groups and
all that begins like their members, and those that its subject is bound to. -/
def Template.Names (t : Template) (name : String) : Prop :=
  (∃ s ∈ t.fields, s.mode ≠ .control ∧ name = s.name) ∨
    (∃ s ∈ t.fields, s.isGroup = true ∧ name = s.sizeName) ∨
    (∃ s ∈ t.fields, s.isGroup = true ∧ Text.startsWith name (s.elementName ++ ".") = true) ∨
    ∃ e ∈ t.subject, ∃ names, e.rule = .field names ∧ name ∈ names

variable {m p : Message} {t : Template}

/-- The check looks at nothing but what matters to the template, however deep its groups nest. -/
theorem Template.Reads.names {name : String} (h : t.Reads name) : t.Names name := by
  rcases h with ⟨s, hs, hreads⟩ | hbound
  · cases hreads with
    | own hmode => exact .inl ⟨s, hs, hmode, String.empty_append⟩
    | size hgroup => exact .inr (.inl ⟨s, hs, hgroup, String.empty_append⟩)
    | member hgroup hstem =>
      rw [groupStem, String.empty_append] at hstem
      exact .inr (.inr (.inl ⟨s, hs, hgroup, hstem⟩))
  · exact .inr (.inr (.inr hbound))

theorem Template.subjectFor_agree (h : m.AgreeOn (BoundIn t.subject) p)
    (hsubject : p.subject = m.subject) : t.subjectFor p = t.subjectFor m := by
  unfold subjectFor
  rw [hsubject, buildSubject_agree h]

namespace Registry

variable {r : Registry} {id : String}

theorem schemaIdOf_bound (hid : m.schemaId? = some id) : r.schemaIdOf m = some id := by
  unfold schemaIdOf
  rw [hid]
  rfl

/-- Messages that are bound to the same schema, are under the same subject or none, and agree on
what matters to the template, get the same status. -/
theorem validate_eq_of_agreeOn (hfound : (r.findTemplate id).outcome = .ok t)
    (hm : m.schemaId? = some id) (hp : p.schemaId? = some id) (hsubject : p.subject = m.subject)
    (hagree : m.AgreeOn t.Names p) : (r.validate p).value = (r.validate m).value := by
  have hreads : m.AgreeOn t.Reads p := hagree.mono fun _ h => h.names
  have hsame := Template.subjectFor_agree (hreads.mono fun _ hbound => .inr hbound) hsubject
  rw [validate_resolved (resolve_found (schemaIdOf_bound hm) hfound),
    validate_resolved (resolve_found (schemaIdOf_bound hp) hfound),
    Template.check_agree hreads hsame]

/-- The directive as a publication with a field that its template does not name. -/
def directiveAside : Message :=
  (directive.setKind .publish).add ⟨"REMARK", .bool true, by decide⟩

theorem field?_directiveAside {name : String} (hname : name ≠ "REMARK") :
    directiveAside.field? name = directive.field? name :=
  (Message.field?_add _ _ name).trans (if_neg (Ne.symm hname))

theorem not_names_remark : ¬directiveTemplate.Names "REMARK" := by
  have hsize : "REMARK" ≠ toString "NUM-OF-" ++ toString "ARGUMENTS" := by decide
  have hmember : Text.startsWith "REMARK" "ARGUMENT." = false := by decide
  simp [Template.Names, directiveTemplate, FieldSpec.new, FieldSpec.isGroup, FieldSpec.sizeName,
    FieldSpec.elementName, hsize, hmember]

/-- The remark and the kind of a directive make no difference to its status. -/
theorem validate_eq_of_agreeOn_directive :
    (directives.findTemplate directiveTemplate.id).outcome = .ok directiveTemplate ∧
    directive.schemaId? = some directiveTemplate.id ∧
    directiveAside.schemaId? = some directiveTemplate.id ∧
    directiveAside.subject = directive.subject ∧
    directive.AgreeOn directiveTemplate.Names directiveAside ∧
    (directives.validate directiveAside).value = (directives.validate directive).value := by
  have hlisted : directives.templates.get? directiveTemplate.id = some directiveTemplate :=
    Roster.get?_ofList List.mem_cons_self fun t ht _ => List.mem_singleton.mp ht
  have hfound : (directives.findTemplate directiveTemplate.id).outcome = .ok directiveTemplate := by
    rw [findTemplate_listed hlisted (by decide) (by rintro ⟨h, hmem, -⟩; cases hmem)]
    rfl
  have hagree : directive.AgreeOn directiveTemplate.Names directiveAside := by
    intro name hname
    refine field?_directiveAside ?_
    rintro rfl
    exact not_names_remark hname
  exact ⟨hfound, rfl, rfl, rfl, hagree, validate_eq_of_agreeOn hfound rfl rfl rfl hagree⟩

end Registry

end BusCompliance
