import BusCompliance.Factory
import BusCompliance.Proofs.Registry.Composition
import BusCompliance.Proofs.Registry.Listed
import BusCompliance.Proofs.Wire.Document
import Mathlib.Data.List.ReduceOption

/-!
# Messages made from templates

A message of a template can be made if all defaults of the template make fields. It has those
fields, whatever the standard fields are. The load checks the defaults of documents, but writes
segments of the id over them, so a template may be listed of which no message can be made.
-/

namespace BusCompliance

theorem Kind.exists_ofSchemaId_iff {id : String} : (∃ kind, ofSchemaId id = .ok kind) ↔
    (Text.segments id).head? ∈ [some "MSG", some "REQ", some "RESP"] := by
  unfold ofSchemaId
  split <;> simp_all

namespace Factory

variable {σ : Type} {f : Factory σ} {r : Registry} {t : Template} {m m' : Message} {s : FieldSpec}
  {specs : List FieldSpec} {g : Field}

/-! ## Stamping -/

theorem stamp_eq_ok_iff : stamp m s = .ok m' ↔
    ∃ o, s.defaultField = .ok o ∧ m' = m.addAll o.toList := by
  unfold stamp
  rw [bind_eq_ok_iff]
  refine exists_congr fun o => and_congr_right fun _ => ?_
  cases o with
  | none => exact ⟨fun h => (Except.ok.inj h).symm, fun h => congrArg Except.ok h.symm⟩
  | some g => exact ⟨fun h => (Except.ok.inj h).symm, fun h => congrArg Except.ok h.symm⟩

theorem foldlM_stamp_eq_ok_iff : specs.foldlM stamp m = .ok m' ↔
    ∃ stamped, specs.mapM FieldSpec.defaultField = .ok stamped ∧
      m' = m.addAll stamped.reduceOption := by
  induction specs generalizing m with
  | nil =>
    constructor
    · rintro ⟨⟩
      exact ⟨[], rfl, rfl⟩
    · rintro ⟨_, ⟨⟩, rfl⟩
      rfl
  | cons s specs ih =>
    rw [List.foldlM_cons, bind_eq_ok_iff]
    simp only [stamp_eq_ok_iff, ih, mapM_eq_ok_iff, List.forall₂_cons_left_iff]
    constructor
    · rintro ⟨_, ⟨o, ho, rfl⟩, stamped, hstamped, rfl⟩
      refine ⟨o :: stamped, ⟨o, stamped, ho, hstamped, rfl⟩, ?_⟩
      cases o with
      | none => rfl
      | some g => rfl
    · rintro ⟨_, ⟨o, stamped, ho, hstamped, rfl⟩, rfl⟩
      refine ⟨_, ⟨o, ho, rfl⟩, stamped, hstamped, ?_⟩
      cases o with
      | none => rfl
      | some g => rfl

theorem exists_foldlM_stamp_iff :
    (∃ m', specs.foldlM stamp m = .ok m') ↔ ∀ s ∈ specs, s.IsStampable := by
  simp only [foldlM_stamp_eq_ok_iff]
  unfold FieldSpec.IsStampable
  rw [← exists_mapM_iff]
  constructor
  · rintro ⟨_, stamped, hstamped, -⟩
    exact ⟨stamped, hstamped⟩
  · rintro ⟨stamped, hstamped⟩
    exact ⟨_, stamped, hstamped, rfl⟩

/-- A default that is put in stays, since no other specification has its name. -/
theorem field?_of_foldlM_stamp (h : specs.foldlM stamp m = .ok m')
    (hdistinct : (specs.map (·.name)).Nodup) (hs : s ∈ specs)
    (hfield : s.defaultField = .ok (some g)) : m'.field? s.name = some g := by
  have hname : ∀ {s : FieldSpec} {g : Field}, s.defaultField = .ok (some g) → g.name = s.name := by
    intro s g hfield
    obtain ⟨type, text, -, hmade⟩ := FieldSpec.defaultField_eq_some_iff.mp hfield
    exact (Field.ofText_eq_ok_iff.mp hmade).1
  obtain ⟨stamped, hstamped, rfl⟩ := foldlM_stamp_eq_ok_iff.mp h
  rw [Message.addAll_eq]
  refine Roster.get?_foldl_insert (.inl ?_) (hname hfield) ?_
  · exact List.reduceOption_mem_iff.mpr ((mem_iff_of_mapM hstamped).mpr ⟨s, hs, hfield⟩)
  · intro y hy hsame
    obtain ⟨u, hu, hfield'⟩ := (mem_iff_of_mapM hstamped).mp (List.reduceOption_mem_iff.mp hy)
    have hus : u = s :=
      List.inj_on_of_nodup_map hdistinct hu hs ((hname hfield').symm.trans hsame)
    subst hus
    rw [hfield] at hfield'
    cases hfield'
    rfl

/-! ## Instantiation -/

theorem instantiate_eq_ok_iff : f.instantiate r t = .ok m ↔ ∃ kind,
    Kind.ofSchemaId t.id = .ok kind ∧ t.fields.foldlM stamp
      (((Message.new kind).bind (r.bindingOf t)).addAll f.standardFields) = .ok m :=
  bind_eq_ok_iff

theorem exists_instantiate_iff
    (hkind : (Text.segments t.id).head? ∈ [some "MSG", some "REQ", some "RESP"]) :
    (∃ m, f.instantiate r t = .ok m) ↔ ∀ s ∈ t.fields, s.IsStampable := by
  obtain ⟨kind, hkind⟩ := Kind.exists_ofSchemaId_iff.mpr hkind
  unfold instantiate
  rw [hkind, ok_bind]
  exact exists_foldlM_stamp_iff

theorem binding_of_instantiate (h : f.instantiate r t = .ok m) :
    m.binding = some (r.bindingOf t) := by
  obtain ⟨kind, -, hstamped⟩ := instantiate_eq_ok_iff.mp h
  obtain ⟨stamped, -, rfl⟩ := foldlM_stamp_eq_ok_iff.mp hstamped
  rw [Message.addAll_eq, Message.addAll_eq]
  rfl

/-! ## Creation -/

theorem outcome_create {id : String} (hfound : (r.findTemplate id).outcome = .ok t) :
    (f.create r id).outcome = f.instantiate r t := by
  unfold create
  simp only [Action.outcome_bind, Action.outcome_ofExcept, hfound, ok_bind]
  cases f.instantiate r t with
  | error e => rfl
  | ok m => rfl

theorem outcome_create_listed (hlisted : r.templates.get? t.id = some t)
    (hfilled : Text.allBlank t.id = false) (hplain : ¬r.IsQualified t.id) :
    (f.create r t.id).outcome = f.instantiate r t := by
  refine outcome_create ?_
  rw [Registry.findTemplate_listed hlisted hfilled hplain]
  rfl

variable {source : Source} {version : Nat} {level : SchemaLevel} {id : String}

/-- A message of a listed schema can be made if each field of the header that the document leaves
alone can take the segment of the id that is its default, and only then. -/
theorem create_listed_iff (hload : (Registry.load source version level).outcome = .ok r)
    (learns : Bool) (hid : id ∈ r.schemaIds) (hfilled : Text.allBlank id = false)
    (hplain : ¬r.IsQualified id)
    (hkind : (Text.segments id).head? ∈ [some "MSG", some "REQ", some "RESP"]) (f : Factory σ) :
    ∃ p, Registry.IsDocumentOf source version level.value id p ∧
      ((∃ m, (f.create (r.withLearning learns) id).outcome = .ok m) ↔
        ∀ s ∈ r.headerSpecs, s.name ∉ p.document.fields.map (·.name) →
          ∀ text, r.segmentOf? p s.name = some text →
            ∀ type, s.mode ≠ .control → s.type.single? = some type →
              Text.allBlank s.name = false ∧ ∃ value, Value.read type text = .ok value) := by
  obtain ⟨directory, names, ps, hmade⟩ := Registry.exists_loadedFrom hload
  obtain ⟨t, hlisted⟩ := Registry.mem_schemaIds_iff.mp hid
  obtain ⟨p, hp, htemplate⟩ := hmade.get?_templates_iff.mp hlisted
  have ht : t.id = id := Roster.key_of_get? hlisted
  subst ht
  refine ⟨p, hp, ?_⟩
  have hcreate : (f.create (r.withLearning learns) t.id).outcome =
      f.instantiate (r.withLearning learns) t := outcome_create_listed hlisted hfilled hplain
  rw [hcreate, exists_instantiate_iff hkind, hmade.isStampable_fields_iff htemplate]
  refine forall₅_congr fun s hs hnot text htext => ?_
  rw [FieldSpec.isStampable_iff]
  constructor
  · intro h type hmode hsingle
    exact h type text (FieldSpec.stamps_withDefault_some_iff.mpr ⟨hmode, hsingle, rfl⟩)
  · rintro h type text' hstamps
    obtain ⟨hmode, hsingle, rfl⟩ := FieldSpec.stamps_withDefault_some_iff.mp hstamps
    exact h type hmode hsingle

/-- A source whose header takes the second segment of the id for a number. -/
def numberedSource : Source := .inline
  ("levels=[\x7blevel=0,name=\"L\"\x7d]\n" ++
    "schemas=[\x7bid=\"HEADER\",level=0,definition=[\"T\",\"N\"]\x7d," ++
    "\x7bid=\"MSG.7\",level=0\x7d,\x7bid=\"MSG.HB\",level=0\x7d]")
  [("a", "id=\"HEADER\"\nlevel=\"L\"\n" ++
      "fields=[\x7bname=\"N\",type=\"U8\",mode=\"REQUIRED\"\x7d]"),
    ("b", "id=\"MSG.7\"\nlevel=\"L\""), ("c", "id=\"MSG.HB\"\nlevel=\"L\"")]

/-- A factory without validators and standard fields. -/
def plainFactory : Factory Unit := .new ⟨false, false⟩

theorem load_numberedSource : ∃ r, (Registry.load numberedSource 201900 .base).outcome = .ok r ∧
    decide (r.version = 201900 ∧ "MSG.7" ∈ r.schemaIds ∧ "MSG.HB" ∈ r.schemaIds ∧
      r.definition? "MSG.7" 0 = some ⟨"MSG.7", 0, ["T", "N"]⟩ ∧
      (∀ s ∈ r.headerSpecs, s.name = "N" ∧ s.type = .oneOf [.integer .u8]) ∧
      (r.templates.get? "MSG.HB").any (·.fields.any fun s => s.defaultField.isOk = false)) = true :=
  Registry.exists_load (by decide +kernel)

/-- The segment 7 is a number. -/
theorem create_listed_number : ∃ r, (Registry.load numberedSource 201900 .base).outcome = .ok r ∧
    "MSG.7" ∈ r.schemaIds ∧ Text.allBlank "MSG.7" = false ∧ ¬r.IsQualified "MSG.7" ∧
    ∃ m, (plainFactory.create r "MSG.7").outcome = .ok m := by
  obtain ⟨r, hload, hfacts⟩ := load_numberedSource
  obtain ⟨hversion, hid, -, hdefinition, hspecs, -⟩ := of_decide_eq_true hfacts
  have hplain : ¬r.IsQualified "MSG.7" := by
    apply Registry.not_isQualified
    rw [hversion]
    decide +kernel
  refine ⟨r, hload, hid, by decide, hplain, ?_⟩
  obtain ⟨p, hp, hcreated⟩ := create_listed_iff hload r.learns hid (by decide) hplain (by decide)
    plainFactory
  have hlevel : p.level = 0 := Nat.le_zero.mp hp.within
  refine hcreated.mpr ?_
  intro s hs _ text htext type _ hsingle
  obtain ⟨hname, htype⟩ := hspecs s hs
  rw [htype] at hsingle
  cases hsingle
  unfold Registry.segmentOf? Registry.idFields at htext
  rw [hp.schema, hlevel, hdefinition, hname] at htext
  have hseven : text = "7" := Option.some.inj (htext.symm.trans (by decide))
  subst hseven
  rw [hname]
  exact ⟨by decide, .integer .u8 ⟨7, by decide, by decide⟩, by decide⟩

/-- The segment HB is none: its schema is listed, but no message of it can be made. -/
theorem exists_listed_uncreated : ∃ r id,
    (Registry.load numberedSource 201900 .base).outcome = .ok r ∧ id ∈ r.schemaIds ∧
    Text.allBlank id = false ∧ ¬r.IsQualified id ∧ (Text.segments id).head? = some "MSG" ∧
    ¬∃ m, (plainFactory.create r id).outcome = .ok m := by
  obtain ⟨r, hload, hfacts⟩ := load_numberedSource
  obtain ⟨hversion, -, hid, -, -, hbad⟩ := of_decide_eq_true hfacts
  have hplain : ¬r.IsQualified "MSG.HB" := by
    apply Registry.not_isQualified
    rw [hversion]
    decide +kernel
  refine ⟨r, "MSG.HB", hload, hid, by decide, hplain, by decide, ?_⟩
  obtain ⟨t, hlisted⟩ := Registry.mem_schemaIds_iff.mp hid
  rw [hlisted, Option.any_some] at hbad
  obtain ⟨s, hs, hbad⟩ := List.any_eq_true.mp hbad
  have ht : t.id = "MSG.HB" := Roster.key_of_get? hlisted
  rw [← ht] at hlisted hplain ⊢
  rw [outcome_create_listed hlisted (by rw [ht]; decide) hplain,
    exists_instantiate_iff (by rw [ht]; decide)]
  intro hall
  obtain ⟨o, ho⟩ := hall s hs
  rw [ho] at hbad
  cases hbad

end Factory

end BusCompliance
