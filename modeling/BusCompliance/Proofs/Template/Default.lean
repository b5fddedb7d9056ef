import BusCompliance.Proofs.Outcome
import BusCompliance.Template.FieldSpec

/-!
# Defaults of specifications

A new message gets a field for each specification that has a default and exactly one type, other
than control ones. The field can be made if the specification has a name and the default is a value
of the type.
-/

namespace BusCompliance

/-! ## Fields from texts -/

namespace Field

variable {name text : String} {type : ValueType} {f : Field}

theorem ofText_eq_ok_iff : ofText name type text = .ok f ↔
    f.name = name ∧ Value.read type text = .ok f.value := by
  unfold ofText make
  rw [bind_eq_ok_iff]
  constructor
  · rintro ⟨value, hread, hmade⟩
    split at hmade
    · cases hmade
      exact ⟨rfl, hread⟩
    · cases hmade
  · rintro ⟨rfl, hread⟩
    exact ⟨f.value, hread, dif_pos f.named⟩

/-- A bad value is reported before a bad name. -/
theorem ofText_eq_error_iff {e : Error} : ofText name type text = .error e ↔
    Value.read type text = .error e ∨ (∃ value, Value.read type text = .ok value) ∧
      Text.allBlank name = true ∧ e = .blankFieldName := by
  unfold ofText make
  rw [bind_eq_error_iff]
  refine or_congr_right ?_
  constructor
  · rintro ⟨value, hread, hmade⟩
    split at hmade
    · cases hmade
    · rename_i hblank
      cases hmade
      exact ⟨⟨value, hread⟩, eq_true_of_ne_false hblank, rfl⟩
  · rintro ⟨⟨value, hread⟩, hblank, rfl⟩
    exact ⟨value, hread, dif_neg (by simp [hblank])⟩

theorem exists_ofText_iff : (∃ f, ofText name type text = .ok f) ↔
    Text.allBlank name = false ∧ ∃ value, Value.read type text = .ok value := by
  simp only [ofText_eq_ok_iff]
  constructor
  · rintro ⟨f, rfl, hread⟩
    exact ⟨f.named, f.value, hread⟩
  · rintro ⟨hnamed, value, hread⟩
    exact ⟨⟨name, value, hnamed⟩, rfl, hread⟩

end Field

/-! ## Defaults -/

namespace FieldSpec

variable {s : FieldSpec} {f : Field} {text : String} {type : ValueType} {text? : Option String}

/-- A new message gets a field of the type, made from the text. -/
structure Stamps (s : FieldSpec) (type : ValueType) (text : String) : Prop where
  field : s.mode ≠ .control
  single : s.type.single? = some type
  default : s.default = some text

theorem Stamps.defaultField_eq (h : s.Stamps type text) :
    s.defaultField = (Field.ofText s.name type text).map some := by
  unfold defaultField
  rw [h.single, h.default]
  split
  · rename_i hmode
    exact absurd hmode h.field
  · rename_i htext htype _
    cases htext
    cases htype
    rfl
  · rename_i hnot
    exact absurd rfl (hnot text type rfl)

theorem defaultField_eq_none (h : ∀ type text, ¬s.Stamps type text) :
    s.defaultField = .ok none := by
  unfold defaultField
  split
  · rfl
  · rename_i text type hdefault hsingle hmode
    exact absurd ⟨hmode, hsingle, hdefault⟩ (h type text)
  · rfl

/-- A new message gets a field made from a text, or none. -/
theorem defaultField_cases (s : FieldSpec) : s.defaultField = .ok none ∨
    ∃ type text, s.Stamps type text ∧
      s.defaultField = (Field.ofText s.name type text).map some := by
  by_cases hstamps : ∃ type text, s.Stamps type text
  · obtain ⟨type, text, hstamps⟩ := hstamps
    exact .inr ⟨type, text, hstamps, hstamps.defaultField_eq⟩
  · exact .inl (defaultField_eq_none fun type text h => hstamps ⟨type, text, h⟩)

theorem defaultField_eq_some_iff : s.defaultField = .ok (some f) ↔
    ∃ type text, s.Stamps type text ∧ Field.ofText s.name type text = .ok f := by
  constructor
  · intro h
    rcases s.defaultField_cases with hnone | ⟨type, text, hstamps, hmade⟩
    · rw [hnone] at h
      cases h
    · rw [hmade, map_eq_ok_iff] at h
      obtain ⟨g, hg, hsome⟩ := h
      cases hsome
      exact ⟨type, text, hstamps, hg⟩
  · rintro ⟨type, text, hstamps, hmade⟩
    rw [hstamps.defaultField_eq, hmade]
    rfl

theorem defaultField_eq_error_iff {e : Error} : s.defaultField = .error e ↔
    ∃ type text, s.Stamps type text ∧ Field.ofText s.name type text = .error e := by
  constructor
  · intro h
    rcases s.defaultField_cases with hnone | ⟨type, text, hstamps, hmade⟩
    · rw [hnone] at h
      cases h
    · rw [hmade, map_eq_error_iff] at h
      exact ⟨type, text, hstamps, h⟩
  · rintro ⟨type, text, hstamps, hmade⟩
    rw [hstamps.defaultField_eq, hmade]
    rfl

/-- What a new message gets can be made. -/
def IsStampable (s : FieldSpec) : Prop := ∃ o, s.defaultField = .ok o

theorem isStampable_iff : s.IsStampable ↔ ∀ type text, s.Stamps type text →
    Text.allBlank s.name = false ∧ ∃ value, Value.read type text = .ok value := by
  unfold IsStampable
  simp only [← Field.exists_ofText_iff]
  constructor
  · rintro ⟨o, h⟩ type text hstamps
    rw [hstamps.defaultField_eq, map_eq_ok_iff] at h
    obtain ⟨f, hf, -⟩ := h
    exact ⟨f, hf⟩
  · intro h
    rcases s.defaultField_cases with hnone | ⟨type, text, hstamps, -⟩
    · exact ⟨none, hnone⟩
    · obtain ⟨f, hmade⟩ := h type text hstamps
      exact ⟨some f, defaultField_eq_some_iff.mpr ⟨type, text, hstamps, hmade⟩⟩

/-- The specification with a text as its default, if there is one. -/
def withDefault (s : FieldSpec) (text? : Option String) : FieldSpec :=
  { s with default := text?.or s.default }

@[simp] theorem withDefault_name : (s.withDefault text?).name = s.name := rfl

@[simp] theorem withDefault_none : s.withDefault none = s := by
  cases s
  rfl

@[simp] theorem withDefault_withDefault {last? : Option String} :
    (s.withDefault text?).withDefault last? = s.withDefault (last?.or text?) := by
  unfold withDefault
  rw [Option.or_assoc]

theorem stamps_withDefault_some_iff {own : String} : (s.withDefault (some own)).Stamps type text ↔
    s.mode ≠ .control ∧ s.type.single? = some type ∧ own = text := by
  constructor
  · rintro ⟨hmode, hsingle, hdefault⟩
    exact ⟨hmode, hsingle, Option.some.inj hdefault⟩
  · rintro ⟨hmode, hsingle, rfl⟩
    exact ⟨hmode, hsingle, rfl⟩

end FieldSpec

end BusCompliance
