import BusCompliance.Proofs.Compliance.Fields
import BusCompliance.Proofs.Factory.Creation

/-!
# Defaults under the check

A load reads each default as a value of its type, and asks no more of it. So the field that a new
message gets for a default has a name and a type that the check accepts, and nothing ties its value
to the values and the pattern of its specification.
-/

namespace BusCompliance

namespace FieldSpec

variable {s : FieldSpec} {f : Field} {m : Message} {name : String} {v : Violation}

/-- The values of the specification, if it lists any, let the field in. -/
def AllowsValue (s : FieldSpec) (f : Field) : Prop :=
  s.constraints = [] ∨ ∃ c ∈ s.constraints, c.allows f.value = true

def AllowsText (s : FieldSpec) (f : Field) : Prop :=
  ∀ p, s.pattern = some p → p.accepts f.text = true

theorem check_eq_none_iff (hfield : m.field? name = some f)
    (htype : s.type.accepts f.type = true) :
    s.check m name = none ↔ s.AllowsValue f ∧ s.AllowsText f := by
  constructor
  · intro h
    cases fieldSatisfied_of_check h with
    | absent habsent => cases hfield.symm.trans habsent
    | present hpresent _ hvalue htext =>
      cases hfield.symm.trans hpresent
      exact ⟨hvalue, htext⟩
  · rintro ⟨hvalue, htext⟩
    exact check_of_fieldSatisfied (.present hfield htype hvalue htext)

/-- A field of an accepted type is checked for its value and then for its text. -/
theorem check_eq_some_iff (hfield : m.field? name = some f)
    (htype : s.type.accepts f.type = true) : s.check m name = some v ↔
      (¬s.AllowsValue f ∧ v = .wrongValue name f.text s.constraints) ∨
      (s.AllowsValue f ∧
        ∃ p, s.pattern = some p ∧ p.accepts f.text = false ∧ v = .wrongContent name f.text p) := by
  have hallows := value_allowed_iff s.constraints f.value
  unfold check
  rw [hfield]
  simp only [htype, Bool.not_true, Bool.false_eq_true, if_false]
  split
  · rename_i hrejected
    have hnot : ¬s.AllowsValue f := fun h => by
      rw [hallows.mpr h] at hrejected
      cases hrejected
    constructor
    · rintro ⟨⟩
      exact .inl ⟨hnot, rfl⟩
    · rintro (⟨-, rfl⟩ | ⟨hvalue, -⟩)
      · rfl
      · exact absurd hvalue hnot
  · rename_i hallowed
    have hvalue : s.AllowsValue f := hallows.mp (Bool.eq_false_iff.mpr hallowed)
    constructor
    · intro h
      split at h
      · rename_i p hpattern
        split at h
        · cases h
        · rename_i htext
          cases h
          exact .inr ⟨hvalue, p, hpattern, Bool.eq_false_iff.mpr htext, rfl⟩
      · cases h
    · rintro (⟨hnot, -⟩ | ⟨-, p, hpattern, htext, rfl⟩)
      · exact absurd hvalue hnot
      · simp [hpattern, htext]

/-- The field of a default has the one type of its specification. -/
theorem type_of_defaultField (h : s.defaultField = .ok (some f)) :
    f.name = s.name ∧ s.type = .oneOf [f.type] := by
  obtain ⟨type, text, hstamps, hmade⟩ := defaultField_eq_some_iff.mp h
  obtain ⟨hname, hread⟩ := Field.ofText_eq_ok_iff.mp hmade
  have htype : f.type = type := Value.type_of_read hread
  have hsingle := hstamps.single
  unfold TypeSpec.single? at hsingle
  split at hsingle
  · rename_i heq
    cases hsingle
    exact ⟨hname, htype ▸ heq⟩
  · cases hsingle

end FieldSpec

namespace Factory

variable {σ : Type} {source : Source} {version : Nat} {level : SchemaLevel} {r : Registry}
  {t : Template} {s : FieldSpec} {g : Field}

/-- The field of a default is in each message made of the template. A check of the specification
finds nothing wrong with it but its value, and that only if the values or the pattern of the
specification do not fit the default. -/
theorem check_stamped (hload : (Registry.load source version level).outcome = .ok r)
    (learns : Bool) (hlisted : r.templates.get? t.id = some t) (hs : s ∈ t.fields)
    (hdefault : s.defaultField = .ok (some g)) :
    g.name = s.name ∧ s.type = .oneOf [g.type] ∧
    (∀ m : Message, m.field? s.name = some g →
      (s.check m s.name = none ↔ s.AllowsValue g ∧ s.AllowsText g) ∧
      ∀ v, s.check m s.name = some v ↔
        (¬s.AllowsValue g ∧ v = .wrongValue s.name g.text s.constraints) ∨
        (s.AllowsValue g ∧ ∃ p, s.pattern = some p ∧ p.accepts g.text = false ∧
          v = .wrongContent s.name g.text p)) ∧
    ∀ (f : Factory σ) id m, ((r.withLearning learns).findTemplate id).outcome = .ok t →
      (f.create (r.withLearning learns) id).outcome = .ok m → m.field? s.name = some g := by
  obtain ⟨hname, htype⟩ := FieldSpec.type_of_defaultField hdefault
  have haccepts : s.type.accepts g.type = true := by
    rw [htype]
    exact List.contains_iff_mem.mpr List.mem_cons_self
  refine ⟨hname, htype, fun m hfield => ⟨?_, fun v => ?_⟩, ?_⟩
  · exact FieldSpec.check_eq_none_iff hfield haccepts
  · exact FieldSpec.check_eq_some_iff hfield haccepts
  · intro f id m hfound hcreate
    obtain ⟨directory, names, ps, hmade⟩ := Registry.exists_loadedFrom hload
    obtain ⟨p, -, htemplate⟩ := hmade.get?_templates_iff.mp hlisted
    have hdistinct := hmade.nodup_fields htemplate
    rw [outcome_create hfound, instantiate_eq_ok_iff] at hcreate
    obtain ⟨kind, -, hstamped⟩ := hcreate
    exact field?_of_foldlM_stamp hstamped hdistinct hs hdefault

/-- A source with a template whose defaults are of their types. That of U is within its range, that
of W is not among its values, and that of P is no time. -/
def defaultsSource : Source := .inline
  ("levels=[\x7blevel=0,name=\"L\"\x7d]\n" ++
    "schemas=[\x7bid=\"HEADER\",level=0,definition=[\"T\"]\x7d,\x7bid=\"MSG.A\",level=0\x7d]")
  [("h", "id=\"HEADER\"\nlevel=\"L\""),
    ("a", "id=\"MSG.A\"\nlevel=\"L\"\nfields=[" ++
      "\x7bname=\"U\",type=\"U8\",mode=\"REQUIRED\",default=\"7\",values=[\"1..9\"]\x7d," ++
      "\x7bname=\"W\",type=\"STRING\",mode=\"REQUIRED\",default=\"X\",values=[\"A\"]\x7d," ++
      "\x7bname=\"P\",type=\"STRING\",mode=\"REQUIRED\",default=\"X\",pattern=\"TIME\"\x7d]")]

def seven : Field := ⟨"U", .integer .u8 ⟨7, by decide, by decide⟩, by decide⟩

/-- The field of the default X under a name. -/
def unfit (name : String) (h : Text.allBlank name = false) : Field := ⟨name, .string "X", h⟩

/-- The field of the default is in the message, and this is what the check says of it. -/
def IsStamped (s : FieldSpec) (m : Message) (g : Field) (v? : Option Violation) : Prop :=
  s.defaultField = .ok (some g) ∧ m.field? s.name = some g ∧ s.check m s.name = v?

instance (s : FieldSpec) (m : Message) (g : Field) (v? : Option Violation) :
    Decidable (IsStamped s m g v?) :=
  inferInstanceAs (Decidable (_ ∧ _ ∧ _))

/-- The three fields are in a message made of the template, and two of them are rejected there. -/
def AllStamped (t : Template) (m : Message) : Prop :=
  (∃ s ∈ t.fields, IsStamped s m seven none) ∧
  (∃ s ∈ t.fields, IsStamped s m (unfit "W" (by decide))
    (some (.wrongValue "W" "X" [.exact "A"]))) ∧
  ∃ s ∈ t.fields, IsStamped s m (unfit "P" (by decide)) (some (.wrongContent "P" "X" .time))

instance (t : Template) (m : Message) : Decidable (AllStamped t m) :=
  inferInstanceAs (Decidable (_ ∧ _ ∧ _))

theorem load_defaultsSource : ∃ r t m,
    (Registry.load defaultsSource 201900 .base).outcome = .ok r ∧
    r.templates.get? t.id = some t ∧ (r.findTemplate t.id).outcome = .ok t ∧
    (plainFactory.create r t.id).outcome = .ok m ∧ AllStamped t m := by
  have hloaded : ∃ r, (Registry.load defaultsSource 201900 .base).outcome = .ok r ∧
      (decide (r.version = 201900) && (r.templates.get? "MSG.A").any fun t =>
        (plainFactory.create r "MSG.A").outcome.toOption.any fun m =>
          decide (AllStamped t m)) = true :=
    Registry.exists_load (by decide +kernel)
  obtain ⟨r, hload, hfacts⟩ := hloaded
  rw [Bool.and_eq_true, decide_eq_true_iff] at hfacts
  obtain ⟨hversion, htemplate⟩ := hfacts
  obtain ⟨t, hlisted, hcreated⟩ := (Option.any_eq_true _ _).mp htemplate
  have hid : t.id = "MSG.A" := Roster.key_of_get? hlisted
  have hplain : ¬r.IsQualified t.id := by
    apply Registry.not_isQualified
    rw [hversion, hid]
    decide +kernel
  rw [← hid] at hlisted hcreated
  obtain ⟨m, hmade, hstamped⟩ := exists_of_toOption_any hcreated
  refine ⟨r, t, m, hload, hlisted, ?_, hmade, of_decide_eq_true hstamped⟩
  rw [Registry.findTemplate_listed hlisted (by rw [hid]; decide) hplain]
  rfl

/-- The default of U is within its range. -/
theorem check_stamped_seven : ∃ r t s m,
    (Registry.load defaultsSource 201900 .base).outcome = .ok r ∧
    r.templates.get? t.id = some t ∧ s ∈ t.fields ∧ s.defaultField = .ok (some seven) ∧
    (plainFactory.create r t.id).outcome = .ok m ∧ m.field? s.name = some seven ∧
    s.AllowsValue seven ∧ s.AllowsText seven := by
  obtain ⟨r, t, m, hload, hlisted, hfound, hmade, ⟨s, hs, hdefault, -, hcheck⟩, -⟩ :=
    load_defaultsSource
  obtain ⟨-, -, hchecked, hstamped⟩ := check_stamped hload r.learns hlisted hs hdefault
  have hfield := hstamped plainFactory t.id m hfound hmade
  obtain ⟨hvalue, htext⟩ := (hchecked m hfield).1.mp hcheck
  exact ⟨r, t, s, m, hload, hlisted, hs, hdefault, hmade, hfield, hvalue, htext⟩

/-- The defaults of W and P are taken by the load and put in a new message, and the check rejects
the one for its value and the other for its text. -/
theorem exists_default_rejected : ∃ r t m,
    (Registry.load defaultsSource 201900 .base).outcome = .ok r ∧
    r.templates.get? t.id = some t ∧ (plainFactory.create r t.id).outcome = .ok m ∧
    (∃ s ∈ t.fields, s.defaultField = .ok (some (unfit "W" (by decide))) ∧
      m.field? s.name = some (unfit "W" (by decide)) ∧
      s.check m s.name = some (.wrongValue "W" "X" [.exact "A"])) ∧
    ∃ s ∈ t.fields, s.defaultField = .ok (some (unfit "P" (by decide))) ∧
      m.field? s.name = some (unfit "P" (by decide)) ∧
      s.check m s.name = some (.wrongContent "P" "X" .time) := by
  obtain ⟨r, t, m, hload, hlisted, -, hmade, -, hvalue, htext⟩ := load_defaultsSource
  exact ⟨r, t, m, hload, hlisted, hmade, hvalue, htext⟩

end Factory

end BusCompliance
