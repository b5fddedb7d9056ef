import BusCompliance.Compliance.Checker
import BusCompliance.Proofs.Compliance.Fields
import BusCompliance.Proofs.Compliance.Subject
import BusCompliance.Proofs.Registry.Lookup

/-!
# Compliant messages

A message gets a nominal status exactly if its fields and its subject satisfy the template that it
is checked by. Nothing in this depends on the order of the checks.
-/

namespace BusCompliance

variable {r r' : Registry} {m : Message} {t : Template} {id : String}

/-! ## Templates -/

theorem fieldViolation?_eq_none_iff {specs : List FieldSpec} :
    fieldViolation? m specs = none ↔ ∀ s ∈ specs, Satisfied m specs "" s := by
  have hcovers := covers_coverIn specs specs "" (m := m)
  unfold fieldViolation?
  constructor
  · intro h
    split at h
    · rename_i names hok
      exact hcovers.sound hok
    · cases h
  · intro h
    obtain ⟨names, hok⟩ := hcovers.complete h []
    rw [hok]

theorem Template.check_isOk_iff : (t.check m).value.isOk = true ↔
    (∀ s ∈ t.fields, Satisfied m t.fields "" s) ∧
      SubjectSatisfied m t.subject (t.subjectFor m) := by
  rw [← fieldViolation?_eq_none_iff, ← subjectFault?_eq_none_iff]
  unfold Template.check
  simp only
  cases fieldViolation? m t.fields with
  | some v => simp [Violation.status, Status.failure, Status.isOk]
  | none =>
    simp only [true_and]
    cases subjectFault? m t.subject (t.subjectFor m) with
    | some fault => simp [SubjectFault.status, Status.failure, Status.isOk]
    | none => simp

/-! ## Registries -/

namespace Registry

theorem resolve_found (hid : r.schemaIdOf m = some id)
    (hfound : (r.findTemplate id).outcome = .ok t) : (r.resolve m).value = .ok (t, r) := by
  unfold resolve findOrLearn
  unfold Action.outcome at hfound
  simp only [hid, Logged.value_bind, ExceptT.run_mk, hfound]
  rfl

theorem validate_resolved (h : (r.resolve m).value = .ok (t, r')) :
    (r.validate m).value = ((t.check m).value, r') := by
  unfold validate
  rw [Logged.value_bind, h]
  rfl

/-- The check is sound and complete: it passes exactly the messages whose fields satisfy every
specification of their template, and whose subject satisfies its elements. -/
theorem validate_isOk_iff (h : (r.resolve m).value = .ok (t, r')) :
    (r.validate m).value.1.isOk = true ↔
      (∀ s ∈ t.fields, Satisfied m t.fields "" s) ∧
        SubjectSatisfied m t.subject (t.subjectFor m) := by
  rw [validate_resolved h]
  exact Template.check_isOk_iff

/-- A template with a group, whose size is optional. -/
def directiveTemplate : Template where
  id := "REQ.DIR"
  level := .base
  description := ""
  subject := [⟨"TYPE", .literal "REQ", false⟩, ⟨"NOTE", .variable [], true⟩]
  fields := [
    .new "NUM-OF-ARGUMENTS" (.oneOf [.integer .u16]) .optional,
    { FieldSpec.new "ARGUMENTS" .variable .control with
      element := some "ARGUMENT"
      children := [.new "NAME" (.oneOf [.string]) .required] }]

def directives : Registry where
  version := 201900
  level := .base
  source := ""
  headers := []
  definitions := []
  aliases := .empty
  templates := .ofList [directiveTemplate]
  learns := false

def directive : Message :=
  (((Message.new .request).bind ⟨"REQ.DIR", 201900, .base⟩).add
    ⟨"NUM-OF-ARGUMENTS", .integer .u16 ⟨1, by decide, by decide⟩, by decide⟩).add
    ⟨"ARGUMENT.1.NAME", .string "FILE", by decide⟩

theorem validate_isOk_iff_directive :
    (directives.resolve directive).value = .ok (directiveTemplate, directives) ∧
      ((directives.validate directive).value.1.isOk = true ↔
        (∀ s ∈ directiveTemplate.fields, Satisfied directive directiveTemplate.fields "" s) ∧
          SubjectSatisfied directive directiveTemplate.subject
            (directiveTemplate.subjectFor directive)) := by
  have hlisted : directives.templates.get? directiveTemplate.id = some directiveTemplate :=
    Roster.get?_ofList List.mem_cons_self fun t ht _ => List.mem_singleton.mp ht
  have hplain : ¬directives.IsQualified directiveTemplate.id := by
    rintro ⟨h, hmem, _⟩
    cases hmem
  have hfound : (directives.findTemplate directiveTemplate.id).outcome = .ok directiveTemplate := by
    rw [findTemplate_listed hlisted (by decide) hplain]
    rfl
  have hresolve := resolve_found (m := directive) rfl hfound
  exact ⟨hresolve, validate_isOk_iff hresolve⟩

end Registry

end BusCompliance
