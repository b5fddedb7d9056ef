import BusCompliance.Proofs.Registry.Loaded

/-!
# Levels over levels

A load at a higher level counts more documents of the same source: it keeps every schema, makes its
template of the highest document that counts, and lays more headers over those of the lower load.
-/

namespace BusCompliance.Registry

variable {source : Source} {version : Nat} {level low high : SchemaLevel} {r r' : Registry}
  {directory : Directory} {ps : List Placed} {names names' : List String} {id : String}

/-! ## One level -/

/-- The only document that a schema has at a level, and the template made of it. -/
theorem LoadedFrom.exists_template (h : LoadedFrom source version level directory names ps r)
    (hid : id ∈ r.schemaIds) : ∃ t p header, r.templates.get? id = some t ∧
      r.activeHeader? = some header ∧ IsDocumentOf source version level.value id p ∧
      (∀ q, IsDocumentOf source version level.value id q → q = p) ∧
      templateOf header r.definitions p = .ok t ∧ t.level.value = p.level := by
  obtain ⟨t, ht⟩ := Registry.mem_schemaIds_iff.mp hid
  obtain ⟨header, hheader⟩ := h.exists_activeHeader
  obtain ⟨p, hp, hmade⟩ := h.get?_templates_iff.mp ht
  rw [hheader] at hmade
  exact ⟨t, p, header, ht, hheader, hp, fun q hq => hq.unique h.reads h.fits.distinct hp, hmade,
    (templateOf_eq_ok hmade).2.1⟩

/-! ## Two levels -/

theorem LoadedFrom.schemaIds_subset (hle : low.value ≤ high.value)
    (hlow : LoadedFrom source version low directory names ps r)
    (hhigh : LoadedFrom source version high directory names' ps r') :
    r.schemaIds ⊆ r'.schemaIds := by
  intro id hid
  obtain ⟨p, hp⟩ := hlow.mem_schemaIds_iff.mp hid
  rw [hhigh.mem_schemaIds_iff, ← hp.schema]
  exact exists_isDocumentOf hhigh.reads hp.held hp.content (Nat.le_trans hp.within hle)

/-- The headers of a lower load are the first ones of a higher load. -/
theorem LoadedFrom.exists_addHeaders (hle : low.value ≤ high.value)
    (hlow : LoadedFrom source version low directory names ps r)
    (hhigh : LoadedFrom source version high directory names' ps r') :
    ∃ levels, addHeaders ps r.headers levels = .ok r'.headers := by
  -- both loads read the names of the levels up to the lower one
  have hnames : ∃ more, names' = names ++ more := by
    have hrange : List.range (high.value + 1) = List.range (low.value + 1) ++
        (List.range (high.value - low.value)).map (low.value + 1 + ·) := by
      rw [← List.range_add]
      congr 1
      omega
    have hlevels := hhigh.levels
    rw [hrange, List.mapM_append] at hlevels
    obtain ⟨lower, hlower, hlevels⟩ := bind_eq_ok_iff.mp hlevels
    obtain ⟨upper, -, ⟨⟩⟩ := bind_eq_ok_iff.mp hlevels
    cases hlower.symm.trans hlow.levels
    exact ⟨upper, rfl⟩
  obtain ⟨more, rfl⟩ := hnames
  have hheaders := hhigh.headers
  rw [List.zipIdx_append] at hheaders
  obtain ⟨below, hbelow, habove⟩ := foldlM_append_eq_ok_iff.mp hheaders
  cases hbelow.symm.trans hlow.headers
  exact ⟨_, habove⟩

/-- Further headers put fields behind those that are there. -/
theorem LoadedFrom.names_prefix (hle : low.value ≤ high.value)
    (hlow : LoadedFrom source version low directory names ps r)
    (hhigh : LoadedFrom source version high directory names' ps r') :
    r.headerSpecs.map (·.name) <+: r'.headerSpecs.map (·.name) := by
  obtain ⟨levels, hlevels⟩ := hlow.exists_addHeaders hle hhigh
  refine fieldsOf_induction (P := fun specs => r.headerSpecs.map (·.name) <+: specs.map (·.name))
    hlevels (List.prefix_refl _) ?_
  intro base d specs _ hbase
  exact hbase.trans (FieldSpec.names_prefix_overlay base specs)

theorem LoadedFrom.headerFieldNames_eq (h : LoadedFrom source version level directory names ps r) :
    r.headerFieldNames none = .ok (r.headerSpecs.map (·.name)) := by
  obtain ⟨header, hheader⟩ := h.exists_activeHeader
  have hblank : Text.trim "" = "" := by decide
  unfold headerFieldNames headerSpecs
  simp [hblank, hheader]

/-- The template of a schema is made of the highest document that counts at the level of the load. A
load at a higher level lists every schema that a lower one lists, and its header has the fields of
the lower one's first, each in its place. -/
theorem load_layered (source : Source) (version : Nat) :
    (∀ level r, (load source version level).outcome = .ok r → ∀ id ∈ r.schemaIds, ∃ t p header,
      r.templates.get? id = some t ∧ r.activeHeader? = some header ∧
      IsDocumentOf source version level.value id p ∧
      (∀ q, IsDocumentOf source version level.value id q → q = p) ∧
      templateOf header r.definitions p = .ok t ∧ t.level.value = p.level) ∧
    ∀ low high r r', low.value < high.value → (load source version low).outcome = .ok r →
      (load source version high).outcome = .ok r' →
      r.schemaIds ⊆ r'.schemaIds ∧
      ∃ fields fields', r.headerFieldNames none = .ok fields ∧
        r'.headerFieldNames none = .ok fields' ∧ fields <+: fields' ∧ fields'.Nodup := by
  constructor
  · intro level r hload id hid
    obtain ⟨directory, names, ps, hmade⟩ := exists_loadedFrom hload
    exact hmade.exists_template hid
  · intro low high r r' hlt hlow hhigh
    obtain ⟨directory, names, ps, hlow⟩ := exists_loadedFrom hlow
    obtain ⟨directory', names', ps', hhigh⟩ := exists_loadedFrom hhigh
    obtain ⟨rfl, rfl⟩ := hlow.reads.unique hhigh.reads
    have hle := Nat.le_of_lt hlt
    exact ⟨hlow.schemaIds_subset hle hhigh, _, _, hlow.headerFieldNames_eq,
      hhigh.headerFieldNames_eq, hlow.names_prefix hle hhigh, hhigh.nodup_headerSpecs⟩

/-- A source of two levels. At the upper one the schema A has another document, and the header puts
a field over F, behind a new one. -/
def layeredSource : Source := .inline
  ("levels=[\x7blevel=0,name=\"L\"\x7d,\x7blevel=1,name=\"M\"\x7d]\n" ++
    "schemas=[\x7bid=\"HEADER\",level=0\x7d,\x7bid=\"HEADER\",level=1\x7d," ++
    "\x7bid=\"A\",level=0\x7d,\x7bid=\"A\",level=1\x7d]")
  [("a", "id=\"A\"\nlevel=\"M\""), ("b", "id=\"A\"\nlevel=\"L\""),
    ("c", "id=\"HEADER\"\nlevel=\"L\"\n" ++
      "fields=[\x7bname=\"F\",type=\"U8\",mode=\"OPTIONAL\"\x7d]"),
    ("d", "id=\"HEADER\"\nlevel=\"M\"\n" ++
      "fields=[\x7bname=\"G\",type=\"U8\",mode=\"OPTIONAL\"\x7d," ++
      "\x7bname=\"F\",type=\"U16\",mode=\"OPTIONAL\"\x7d]")]

theorem load_layeredSource_low :
    ∃ r, (load layeredSource 201900 ⟨0, by decide⟩).outcome = .ok r ∧
      decide ((r.headerFieldNames none).toOption = some ["F"] ∧ "A" ∈ r.schemaIds ∧
        (r.templates.get? "A").map (·.level.value) = some 0) = true :=
  exists_load (by decide +kernel)

theorem load_layeredSource_high :
    ∃ r, (load layeredSource 201900 ⟨1, by decide⟩).outcome = .ok r ∧
      decide ((r.headerFieldNames none).toOption = some ["F", "G"] ∧
        (r.templates.get? "A").map (·.level.value) = some 1) = true :=
  exists_load (by decide +kernel)

/-- The schema A has another template at the upper level, and F keeps its place there. -/
theorem load_layered_twice : ∃ low high r r', low.value < high.value ∧
    (load layeredSource 201900 low).outcome = .ok r ∧
    (load layeredSource 201900 high).outcome = .ok r' ∧ "A" ∈ r.schemaIds ∧ "A" ∈ r'.schemaIds ∧
    (∃ t p, r.templates.get? "A" = some t ∧ IsDocumentOf layeredSource 201900 low.value "A" p ∧
      t.level.value = p.level ∧ p.level = 0) ∧
    (∃ t p, r'.templates.get? "A" = some t ∧ IsDocumentOf layeredSource 201900 high.value "A" p ∧
      t.level.value = p.level ∧ p.level = 1) ∧
    r.headerFieldNames none = .ok ["F"] ∧ r'.headerFieldNames none = .ok ["F", "G"] := by
  obtain ⟨r, hload, hfacts⟩ := load_layeredSource_low
  obtain ⟨r', hload', hfacts'⟩ := load_layeredSource_high
  obtain ⟨hnames, hA, hlevel⟩ := of_decide_eq_true hfacts
  obtain ⟨hnames', hlevel'⟩ := of_decide_eq_true hfacts'
  obtain ⟨htemplates, hlevels⟩ := load_layered layeredSource 201900
  obtain ⟨hsubset, fields, fields', hfields, hfields', -⟩ :=
    hlevels _ _ r r' (by decide) hload hload'
  obtain ⟨t, p, header, ht, -, hp, -, -, hsame⟩ := htemplates _ r hload "A" hA
  obtain ⟨t', p', header', ht', -, hp', -, -, hsame'⟩ := htemplates _ r' hload' "A" (hsubset hA)
  rw [ht, Option.map_some, Option.some.injEq] at hlevel
  rw [ht', Option.map_some, Option.some.injEq] at hlevel'
  refine ⟨_, _, r, r', ?_, hload, hload', hA, hsubset hA,
    ⟨t, p, ht, hp, hsame, hsame.symm.trans hlevel⟩,
    ⟨t', p', ht', hp', hsame', hsame'.symm.trans hlevel'⟩, ?_, ?_⟩
  · decide
  · rw [hfields] at hnames ⊢
    exact congrArg Except.ok (Option.some.inj hnames)
  · rw [hfields'] at hnames' ⊢
    exact congrArg Except.ok (Option.some.inj hnames')

end BusCompliance.Registry
