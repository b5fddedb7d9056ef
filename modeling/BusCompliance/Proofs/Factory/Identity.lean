import BusCompliance.Proofs.Factory.Creation
import BusCompliance.Proofs.Registry.Verdict

/-!
# Messages that say what they are

Where the header names a text field for each segment of an id, the load makes the segments defaults
of those fields, a creation puts them in over the standard fields, and a deduction reads the id off
them again, from the message and from its documents.
-/

namespace BusCompliance

/-- Where keys are distinct, every pair is found by its key. -/
theorem lookup_eq_some {pairs : List (String × String)} (hdistinct : (pairs.map Prod.fst).Nodup)
    {name text : String} (h : (name, text) ∈ pairs) : pairs.lookup name = some text := by
  obtain ⟨front, back, rfl⟩ := List.append_of_mem h
  rw [List.map_append, List.map_cons, List.nodup_append] at hdistinct
  refine List.lookup_eq_some_iff.mpr ⟨front, back, rfl, ?_⟩
  intro pair hpair
  have hne : pair.1 ≠ name :=
    hdistinct.2.2 pair.1 (List.mem_map_of_mem hpair) name List.mem_cons_self
  exact bne_iff_ne.mpr hne.symm

namespace Registry

variable {source : Source} {version : Nat} {level : SchemaLevel} {r : Registry}
  {directory : Directory} {levelNames names : List String} {ps : List Placed} {p : Placed}
  {id : String} {t : Template} {m : Message}

/-- The segments of an id are the values of fields that the header of the level names. They are text
fields of the header, which the documents of the schema leave alone, and no level makes up the id of
other fields. -/
structure IsKeyedBy (source : Source) (version : Nat) (level : SchemaLevel) (r : Registry)
    (id : String) (names : List String) : Prop where
  header : (r.definition? headerId level.value).map (·.fields) = some names
  distinct : names.Nodup
  length : names.length = (Text.segments id).length
  definitions : ∀ d ∈ r.definitions, d.id = id → d.fields = names
  specs : ∀ name ∈ names, ∃ s ∈ r.headerSpecs,
    s.name = name ∧ s.mode ≠ .control ∧ s.type.single? = some .string
  own : ∀ p, IsDocumentOf source version level.value id p → ∀ d ∈ p.document.fields, d.name ∉ names

/-! ## Segments in templates and messages -/

theorem IsKeyedBy.idFields_eq (hkeyed : IsKeyedBy source version level r id names)
    (h : LoadedFrom source version level directory levelNames ps r)
    (hp : IsDocumentOf source version level.value id p) : r.idFields p = names := by
  obtain ⟨d, hd⟩ := h.exists_definition hp.held hp.within
  obtain ⟨hmem, hid⟩ := mem_of_definition? hd
  unfold idFields
  rw [hd]
  exact hkeyed.definitions d hmem (hid.trans hp.schema)

theorem IsKeyedBy.segmentOf?_eq (hkeyed : IsKeyedBy source version level r id names)
    (h : LoadedFrom source version level directory levelNames ps r)
    (hp : IsDocumentOf source version level.value id p) {name text : String}
    (hpair : (name, text) ∈ names.zip (Text.segments id)) : r.segmentOf? p name = some text := by
  unfold segmentOf?
  rw [hkeyed.idFields_eq h hp, hp.schema]
  refine lookup_eq_some ?_ (List.mem_reverse.mpr hpair)
  rw [List.map_reverse, List.nodup_reverse, List.map_fst_zip (Nat.le_of_eq hkeyed.length)]
  exact hkeyed.distinct

/-- The default of the field is the segment. -/
theorem IsKeyedBy.exists_stamps (hkeyed : IsKeyedBy source version level r id names)
    (h : LoadedFrom source version level directory levelNames ps r)
    (hp : IsDocumentOf source version level.value id p)
    (hmade : templateOf (r.activeHeader?.getD ⟨"", [], []⟩) r.definitions p = .ok t)
    {name text : String} (hpair : (name, text) ∈ names.zip (Text.segments id)) :
    ∃ s ∈ t.fields, s.name = name ∧ s.Stamps .string text := by
  obtain ⟨s, hs, rfl, hmode, hsingle⟩ := hkeyed.specs name (List.of_mem_zip hpair).1
  refine ⟨_, h.mem_fields hmade hs ?_, rfl, ?_⟩
  · intro hdeclared
    obtain ⟨d, hd, hname⟩ := List.mem_map.mp hdeclared
    exact hkeyed.own p hp d hd (hname ▸ (List.of_mem_zip hpair).1)
  · rw [hkeyed.segmentOf?_eq h hp hpair]
    exact FieldSpec.stamps_withDefault_some_iff.mpr ⟨hmode, hsingle, rfl⟩

theorem IsKeyedBy.joinValues_eq {σ : Type} {f : Factory σ}
    (hkeyed : IsKeyedBy source version level r id names)
    (h : LoadedFrom source version level directory levelNames ps r)
    (hp : IsDocumentOf source version level.value id p)
    (hmade : templateOf (r.activeHeader?.getD ⟨"", [], []⟩) r.definitions p = .ok t)
    (hcreated : f.instantiate r t = .ok m) : joinValues m names = some id := by
  obtain ⟨kind, -, hstamped⟩ := Factory.instantiate_eq_ok_iff.mp hcreated
  have hall := Factory.exists_foldlM_stamp_iff.mp ⟨m, hstamped⟩
  refine joinValues_eq_some (List.forall₂_iff_zip.mpr ⟨hkeyed.length, ?_⟩)
  intro name text hpair
  obtain ⟨s, hs, rfl, hstamps⟩ := hkeyed.exists_stamps h hp hmade hpair
  obtain ⟨hnamed, -⟩ := FieldSpec.isStampable_iff.mp (hall s hs) _ _ hstamps
  have hfield : s.defaultField = .ok (some ⟨s.name, .string text, hnamed⟩) :=
    FieldSpec.defaultField_eq_some_iff.mpr
      ⟨_, _, hstamps, Field.ofText_eq_ok_iff.mpr ⟨rfl, rfl⟩⟩
  rw [Factory.field?_of_foldlM_stamp hstamped (h.nodup_fields hmade) hs hfield]
  rfl

/-- The message gets its id from its fields, at whatever level it is refined. -/
theorem IsKeyedBy.deduceSchemaId_eq (hkeyed : IsKeyedBy source version level r id names)
    (h : LoadedFrom source version level directory levelNames ps r)
    (hid : joinValues m names = some id) : r.deduceSchemaId m = some id := by
  obtain ⟨header, hheader, hfields⟩ := Option.map_eq_some_iff.mp hkeyed.header
  rw [← h.level_eq] at hheader
  refine deduceSchemaId_eq_some hheader (by rwa [hfields]) ?_
  intro n d hd
  obtain ⟨hmem, hsame⟩ := mem_of_definition? hd
  rwa [hkeyed.definitions d hmem hsame]

/-! ## The wire -/

/-- Either document of a message says the same: its fields, and its subject if it has one. -/
theorem messageOfText_written
    (hsubject : (r.subjectOf m).value = "" ∨ Text.allBlank (r.subjectOf m).value = false)
    {text : String} (hwritten : text = (r.toXml m).value ∨ text = (r.toJson m).value) :
    ∃ q, (Wire.messageOfText text).outcome = .ok q ∧ q.fields = m.fields ∧
      ∀ s, m.subject = some s → q.subject = some s := by
  obtain ⟨q, hq, -, hfields, -, hqs⟩ := Message.underSubject_ok hsubject
  refine ⟨q, ?_, hfields, ?_⟩
  · rcases hwritten with rfl | rfl
    · exact (Wire.messageOfText_messageToXmlAs m _).trans hq
    · exact (Wire.messageOfText_messageToJsonAs m _).trans hq
  · intro s hs
    rw [hqs, subjectOf_own hs, if_neg (Message.subject_ne_empty hs)]

/-- A message that gives the id of a template is bound to it when one of its documents is read. -/
theorem binding_readMessage (hid : r.deduceSchemaId m = some id)
    (hfound : (r.findTemplate id).outcome = .ok t)
    (hsubject : (r.subjectOf m).value = "" ∨ Text.allBlank (r.subjectOf m).value = false)
    {text : String} (hwritten : text = (r.toXml m).value ∨ text = (r.toJson m).value) :
    ∃ p, (r.readMessage text).outcome = .ok p ∧ p.binding = some (r.bindingOf t) := by
  obtain ⟨q, hread, hfields, hown⟩ := messageOfText_written hsubject hwritten
  refine ⟨(r.bindDeduced q).value, outcome_readMessage hread, ?_⟩
  rw [bindDeduced_found (deduceSchemaId_congr hfields hown hid) hfound]
  rfl

/-! ## The theorem -/

/-- A message that is made for an id gives that id, and so do its documents. -/
theorem create_identified {σ : Type} {r₀ : Registry} {learns : Bool}
    (hload : (load source version level).outcome = .ok r₀) (hr : r = r₀.withLearning learns)
    (hkeyed : IsKeyedBy source version level r id names) (hid : id ∈ r.schemaIds)
    (hids : ∀ id ∈ r.schemaIds, Text.allBlank id = false ∧ ¬r.IsQualified id) (f : Factory σ)
    (hcreated : (f.create r id).outcome = .ok m) :
    r.deduceSchemaId m = some id ∧
    ((r.subjectOf m).value = "" ∨ Text.allBlank (r.subjectOf m).value = false →
      ∀ text, text = (r.toXml m).value ∨ text = (r.toJson m).value →
        ∃ p, (r.readMessage text).outcome = .ok p ∧ p.binding = m.binding) := by
  obtain ⟨directory, levelNames, ps, hmade⟩ := exists_loadedFrom hload
  have hmade := hmade.withLearning learns
  rw [← hr] at hmade
  obtain ⟨hfilled, hplain⟩ := hids id hid
  obtain ⟨t, hlisted⟩ := mem_schemaIds_iff.mp hid
  obtain ⟨p, hp, htemplate⟩ := hmade.get?_templates_iff.mp hlisted
  have ht : t.id = id := Roster.key_of_get? hlisted
  subst ht
  rw [Factory.outcome_create_listed hlisted hfilled hplain] at hcreated
  have hjoined := hkeyed.joinValues_eq hmade hp htemplate hcreated
  have hdeduced := hkeyed.deduceSchemaId_eq hmade hjoined
  refine ⟨hdeduced, ?_⟩
  intro hsubject text hwritten
  rw [Factory.binding_of_instantiate hcreated]
  refine binding_readMessage hdeduced ?_ hsubject hwritten
  rw [findTemplate_listed hlisted hfilled hplain]
  rfl

def keyedDocuments : List (String × String) :=
  [("a", "id=\"HEADER\"\nlevel=\"L\"\n" ++
      "fields=[\x7bname=\"T\",type=\"STRING\",mode=\"REQUIRED\"\x7d," ++
      "\x7bname=\"S\",type=\"STRING\",mode=\"REQUIRED\"\x7d]"),
    ("b", "id=\"MSG.HB\"\nlevel=\"L\"")]

/-- A source whose header takes the id from two text fields. -/
def keyedSource : Source := .inline
  ("levels=[\x7blevel=0,name=\"L\"\x7d]\n" ++
    "schemas=[\x7bid=\"HEADER\",level=0,definition=[\"T\",\"S\"]\x7d," ++
    "\x7bid=\"MSG.HB\",level=0\x7d]")
  keyedDocuments

/-- A factory that gives each message a field S of its own. -/
def stubbornFactory : Factory Unit :=
  { Factory.new ⟨false, false⟩ with standardFields := [⟨"S", .string "OTHER", by decide⟩] }

theorem load_keyedSource : ∃ r, (load keyedSource 201900 .base).outcome = .ok r ∧
    decide (r.version = 201900 ∧ r.schemaIds = ["MSG.HB"] ∧
      (r.definition? headerId 0).map (·.fields) = some ["T", "S"] ∧
      (∀ d ∈ r.definitions, d.fields = ["T", "S"]) ∧
      (∀ name ∈ ["T", "S"], ∃ s ∈ r.headerSpecs,
        s.name = name ∧ s.mode ≠ .control ∧ s.type.single? = some .string) ∧
      (stubbornFactory.create r "MSG.HB").outcome.toOption.any fun m =>
        (r.subjectOf m).value = "") = true :=
  exists_load (by decide +kernel)

theorem isKeyedBy_keyedSource
    (hheader : (r.definition? headerId 0).map (·.fields) = some ["T", "S"])
    (hdefinitions : ∀ d ∈ r.definitions, d.fields = ["T", "S"])
    (hspecs : ∀ name ∈ ["T", "S"], ∃ s ∈ r.headerSpecs,
      s.name = name ∧ s.mode ≠ .control ∧ s.type.single? = some .string) :
    IsKeyedBy keyedSource 201900 .base r "MSG.HB" ["T", "S"] := by
  refine ⟨hheader, by decide, by decide, fun d hd _ => hdefinitions d hd, hspecs, ?_⟩
  have hdocuments : ∀ text ∈ keyedDocuments, (SchemaDocument.ofText text.1 text.2).toOption.all
      (fun document => document.id = "MSG.HB" →
        ∀ d ∈ document.fields, d.name ∉ ["T", "S"]) = true := by decide +kernel
  intro p hp
  obtain ⟨_, ⟨⟩, text, htext, hdocument⟩ := hp.held.exists_text
  have hall := hdocuments text htext
  rw [hdocument] at hall
  exact of_decide_eq_true hall hp.schema

/-- The factory has another value for the field S, but the message gives the id all the same. -/
theorem create_identified_heartbeat : ∃ r m, (load keyedSource 201900 .base).outcome = .ok r ∧
    (stubbornFactory.create r "MSG.HB").outcome = .ok m ∧ r.deduceSchemaId m = some "MSG.HB" ∧
    (∃ p, (r.readMessage (r.toXml m).value).outcome = .ok p ∧ p.binding = m.binding) ∧
    ∃ p, (r.readMessage (r.toJson m).value).outcome = .ok p ∧ p.binding = m.binding := by
  obtain ⟨r, hload, hfacts⟩ := load_keyedSource
  obtain ⟨hversion, hids, hheader, hdefinitions, hspecs, hcreated⟩ := of_decide_eq_true hfacts
  have hkeyed := isKeyedBy_keyedSource hheader hdefinitions hspecs
  have hplain : ¬r.IsQualified "MSG.HB" := by
    apply not_isQualified
    rw [hversion]
    decide +kernel
  have hlisted : ∀ id ∈ r.schemaIds, Text.allBlank id = false ∧ ¬r.IsQualified id := by
    rw [hids]
    intro id hid
    rw [List.mem_singleton.mp hid]
    exact ⟨by decide, hplain⟩
  have hid : "MSG.HB" ∈ r.schemaIds := by
    rw [hids]
    exact List.mem_singleton_self _
  cases hmade : (stubbornFactory.create r "MSG.HB").outcome with
  | error e =>
    rw [hmade] at hcreated
    cases hcreated
  | ok m =>
    rw [hmade] at hcreated
    have hsubject : (r.subjectOf m).value = "" := of_decide_eq_true hcreated
    have hr : r = r.withLearning r.learns := rfl
    obtain ⟨hdeduced, hread⟩ :=
      create_identified hload hr hkeyed hid hlisted stubbornFactory hmade
    exact ⟨r, m, hload, hmade, hdeduced, hread (.inl hsubject) _ (.inl rfl),
      hread (.inl hsubject) _ (.inr rfl)⟩

end Registry

end BusCompliance
