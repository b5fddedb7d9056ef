import BusCompliance.Proofs.Registry.Correspondence

/-!
# Loads at lower levels

A load succeeds if the directory, the documents and what they declare are in order up to its level.
A load at a lower level asks for less, but for one thing: of a document that a higher level replaces
only the lower load looks at what it declares.
-/

namespace BusCompliance

/-- What the document declares makes specifications and subject elements. -/
structure SchemaDocument.HasMeaning (d : SchemaDocument) : Prop where
  fields : ∃ specs, d.fieldSpecs = .ok specs
  subject : ∃ elements, d.subjectElements = .ok elements

namespace Registry

variable {source : Source} {version top n : Nat} {level low high : SchemaLevel}
  {directory : Directory} {ps : List Placed} {p q : Placed} {id name : String}

/-! ## What each step asks for -/

theorem exists_levelName_iff : (∃ name, levelName directory n = .ok name) ↔
    (directory.levelName? n).isSome = true ∧ (directory.entry? headerId n).isSome = true := by
  unfold levelName
  cases directory.levelName? n with
  | none => simp
  | some name => cases directory.entry? headerId n <;> simp

theorem exists_addHeader_iff {headers : List Header} :
    (∃ headers', addHeader ps headers n name = .ok headers') ↔
      ∃ p, IsFirstHeader ps n p ∧ p.document.HasMeaning := by
  simp only [addHeader_eq_ok_iff]
  constructor
  · rintro ⟨_, p, specs, own, hp, hspecs, hown, -⟩
    exact ⟨p, hp, ⟨specs, hspecs⟩, own, hown⟩
  · rintro ⟨p, hp, ⟨specs, hspecs⟩, own, hown⟩
    exact ⟨_, p, specs, own, hp, hspecs, hown, rfl⟩

theorem exists_addHeaders_iff {headers : List Header} {levels : List (String × Nat)} :
    (∃ headers', addHeaders ps headers levels = .ok headers') ↔
      ∀ l ∈ levels, ∃ p, IsFirstHeader ps l.2 p ∧ p.document.HasMeaning := by
  induction levels generalizing headers with
  | nil => exact iff_of_true ⟨headers, rfl⟩ fun _ hl => absurd hl List.not_mem_nil
  | cons l levels ih =>
    have hstep {headers' : List Header} : addHeaders ps headers (l :: levels) = .ok headers' ↔
        ∃ below, addHeader ps headers l.2 l.1 = .ok below ∧
          addHeaders ps below levels = .ok headers' := bind_eq_ok_iff
    simp only [hstep, List.forall_mem_cons]
    constructor
    · rintro ⟨headers', below, hbelow, habove⟩
      exact ⟨exists_addHeader_iff.mp ⟨below, hbelow⟩, ih.mp ⟨headers', habove⟩⟩
    · rintro ⟨hl, hlevels⟩
      obtain ⟨below, hbelow⟩ : ∃ below, addHeader ps headers l.2 l.1 = .ok below :=
        exists_addHeader_iff.mpr hl
      obtain ⟨headers', habove⟩ : ∃ headers', addHeaders ps below levels = .ok headers' :=
        ih.mpr hlevels
      exact ⟨headers', below, hbelow, habove⟩

theorem exists_templateOf_iff {active : Header} {definitions : List Definition}
    (hwithin : p.level ≤ 6) :
    (∃ t, templateOf active definitions p = .ok t) ↔ p.document.HasMeaning := by
  simp only [templateOf_eq_ok_iff]
  constructor
  · rintro ⟨_, own, elements, -, hown, helements, -⟩
    exact ⟨⟨own, hown⟩, elements, helements⟩
  · rintro ⟨⟨own, hown⟩, elements, helements⟩
    exact ⟨_, own, elements, ⟨p.level, hwithin⟩, hown, helements, dif_pos hwithin, rfl⟩

/-! ## What a load asks for -/

/-- The directory and the documents of a source are in order up to a level. -/
structure IsLoadable (source : Source) (version top : Nat) (directory : Directory)
    (ps : List Placed) : Prop where
  reads : Reads source version directory ps
  /-- Every level has a name and an entry for its header. -/
  levels : ∀ n ≤ top,
    (directory.levelName? n).isSome = true ∧ (directory.entry? headerId n).isSome = true
  distinct : (ps.map Placed.key).Nodup
  listed : ∀ p ∈ ps, IsListed directory top p
  /-- Every entry but those for definitions only has a document. -/
  present : ∀ e ∈ directory.schemas, e.level ≤ top → e.definitionOnly = false →
    entryKey e ∈ ps.map Placed.key
  headers : ∀ n ≤ top, ∃ p ∈ ps, p.key = (headerId, n) ∧ p.document.HasMeaning
  /-- Of the other documents only the highest one of each schema has to have a meaning. -/
  documents : ∀ id p, IsDocumentOf source version top id p → p.document.HasMeaning

theorem forM_checkEntry_iff {keys : List (String × Nat)} :
    (entriesUpTo directory top).forM (checkEntry keys) = .ok () ↔
      ∀ e ∈ directory.schemas, e.level ≤ top → e.definitionOnly = false → entryKey e ∈ keys := by
  simp only [forM_eq_ok_iff, checkEntry_eq_ok_iff, mem_entriesUpTo_iff]
  constructor
  · intro h e he hwithin htemplate
    refine (h e ⟨he, hwithin⟩).resolve_left ?_
    rw [htemplate]
    exact Bool.false_ne_true
  · rintro h e ⟨he, hwithin⟩
    cases htemplate : e.definitionOnly with
    | true => exact .inl rfl
    | false => exact .inr (h e he hwithin htemplate)

theorem forall_mem_zipIdx_iff {names : List String} {P : Nat → Prop} :
    (∀ l ∈ names.zipIdx, P l.2) ↔ ∀ n < names.length, P n := by
  constructor
  · intro h n hn
    exact h (names[n], n) (List.mem_zipIdx_iff_getElem?.mpr (List.getElem?_eq_getElem hn))
  · intro h l hl
    exact h l.2 (List.snd_lt_of_mem_zipIdx hl)

theorem exists_layerHeaders_iff {names : List String} (hlength : names.length = top + 1)
    (hdistinct : (ps.map Placed.key).Nodup) :
    (∃ headers, layerHeaders (counted top ps) names = .ok headers) ↔
      ∀ n ≤ top, ∃ p ∈ ps, p.key = (headerId, n) ∧ p.document.HasMeaning := by
  have hcounted : layerHeaders (counted top ps) names = addHeaders ps [] names.zipIdx := by
    refine addHeaders_counted ?_ ps []
    intro l hl
    have hindex := List.snd_lt_of_mem_zipIdx hl
    omega
  rw [hcounted, exists_addHeaders_iff,
    forall_mem_zipIdx_iff (P := fun n => ∃ p, IsFirstHeader ps n p ∧ p.document.HasMeaning), hlength]
  simp only [isFirstHeader_iff hdistinct, Nat.lt_succ_iff, and_assoc]

theorem exists_templates_iff {active : Header} {definitions : List Definition}
    (hreads : Reads source version directory ps) (hdistinct : (ps.map Placed.key).Nodup) :
    (∃ templates, (templateDocuments (counted level.value ps)).toList.mapM
        (templateOf active definitions) = .ok templates) ↔
      ∀ id p, IsDocumentOf source version level.value id p → p.document.HasMeaning := by
  rw [exists_mapM_iff]
  constructor
  · intro h id p hp
    have hmem := Roster.mem_of_get? ((get?_templateDocuments_iff hreads hdistinct).mpr hp)
    exact (exists_templateOf_iff (Nat.le_trans hp.within level.value_le)).mp (h p hmem)
  · intro h p hmem
    have hp := (get?_templateDocuments_iff hreads hdistinct).mp (Roster.get?_of_mem hmem)
    exact (exists_templateOf_iff (Nat.le_trans hp.within level.value_le)).mpr (h _ p hp)

theorem exists_levelNames_iff :
    (∃ names, (List.range (top + 1)).mapM (levelName directory) = .ok names) ↔ ∀ n ≤ top,
      (directory.levelName? n).isSome = true ∧ (directory.entry? headerId n).isSome = true := by
  simp only [exists_mapM_iff, List.mem_range, exists_levelName_iff, Nat.lt_succ_iff]

/-- A load succeeds exactly if everything is in order up to its level. -/
theorem exists_load_iff : (∃ r, (load source version level).outcome = .ok r) ↔
    ∃ directory ps, IsLoadable source version level.value directory ps := by
  constructor
  · rintro ⟨r, h⟩
    obtain ⟨directory, names, texts, ps, hdirectory, hnames, htexts, hplaces, hfits, hassemble⟩ :=
      load_eq_ok_iff.mp h
    obtain ⟨hentries, headers, templates, hheaders, htemplates, -⟩ :=
      assemble_eq_ok_iff.mp hassemble
    have hreads : Reads source version directory ps := ⟨texts, hdirectory, htexts, hplaces⟩
    refine ⟨directory, ps, hreads, exists_levelNames_iff.mp ⟨names, hnames⟩, hfits.distinct,
      hfits.listed, ?_, ?_, ?_⟩
    · intro e he hwithin htemplate
      exact List.mem_reverse.mp (forM_checkEntry_iff.mp hentries e he hwithin htemplate)
    · exact (exists_layerHeaders_iff (length_levelNames hnames) hfits.distinct).mp
        ⟨headers, hheaders⟩
    · exact (exists_templates_iff hreads hfits.distinct).mp ⟨templates, htemplates⟩
  · rintro ⟨directory, ps, h⟩
    obtain ⟨names, hnames⟩ := exists_levelNames_iff.mpr h.levels
    obtain ⟨headers, hheaders⟩ :=
      (exists_layerHeaders_iff (length_levelNames hnames) h.distinct).mpr h.headers
    obtain ⟨templates, htemplates⟩ : ∃ templates,
        (templateDocuments (counted level.value ps)).toList.mapM
          (templateOf (headers.getLast?.getD ⟨"", [], []⟩)
            ((entriesUpTo directory level.value).map (definitionOf directory))) = .ok templates :=
      (exists_templates_iff h.reads h.distinct).mpr h.documents
    obtain ⟨texts, hdirectory, htexts, hplaces⟩ := h.reads
    refine ⟨_, load_eq_ok_iff.mpr ⟨directory, names, texts, ps, hdirectory, hnames, htexts, hplaces,
      ⟨h.distinct, fun p _ => List.not_mem_nil, h.listed⟩, assemble_eq_ok_iff.mpr
        ⟨forM_checkEntry_iff.mpr ?_, headers, templates, hheaders, htemplates, rfl⟩⟩⟩
    intro e he hwithin htemplate
    exact List.mem_reverse.mpr (h.present e he hwithin htemplate)

/-! ## Lower loads -/

theorem IsListed.of_le (h : IsListed directory top p) (hle : n ≤ top) : IsListed directory n p :=
  fun hn => h (Nat.le_trans hn hle)

/-- What is in order up to a level is so up to a lower one, but for the documents that count only
there. -/
theorem IsLoadable.lower (h : IsLoadable source version top directory ps) (hle : n ≤ top)
    (hdocuments : ∀ id p, IsDocumentOf source version n id p → p.document.HasMeaning) :
    IsLoadable source version n directory ps where
  reads := h.reads
  levels k hk := h.levels k (Nat.le_trans hk hle)
  distinct := h.distinct
  listed p hp := (h.listed p hp).of_le hle
  present e he hwithin := h.present e he (Nat.le_trans hwithin hle)
  headers k hk := h.headers k (Nat.le_trans hk hle)
  documents := hdocuments

/-- There is a document of the same schema at a level above, up to the top. -/
def IsReplaced (source : Source) (version top : Nat) (p : Placed) : Prop :=
  ∃ q, Holds source version q ∧ q.document.id = p.document.id ∧ p.level < q.level ∧ q.level ≤ top

/-- A document counts at a higher level too, unless it is replaced. -/
theorem IsDocumentOf.of_not_isReplaced (h : IsDocumentOf source version n id p) (hle : n ≤ top)
    (hkept : ¬IsReplaced source version top p) : IsDocumentOf source version top id p where
  held := h.held
  schema := h.schema
  content := h.content
  within := Nat.le_trans h.within hle
  highest q hq hid hwithin := Nat.le_of_not_lt fun hlt =>
    hkept ⟨q, hq, hid.trans h.schema.symm, hlt, hwithin⟩

/-- No load succeeds with a header without meaning. -/
theorem not_load_of_header (hheld : Holds source version p) (hheader : p.document.isHeader = true)
    (hwithin : p.level ≤ level.value) (hfault : ¬p.document.HasMeaning) (r : Registry) :
    (load source version level).outcome ≠ .ok r := by
  intro hload
  obtain ⟨directory, ps, h⟩ := exists_load_iff.mp ⟨r, hload⟩
  obtain ⟨q, hq, hkey, hmeaning⟩ := h.headers p.level hwithin
  have hpkey : p.key = (headerId, p.level) := by
    unfold Placed.key
    rw [beq_iff_eq.mp hheader]
  have hp := h.reads.holds_iff.mp hheld
  rw [eq_of_key h.distinct hq hp (hkey.trans hpkey.symm)] at hmeaning
  exact hfault hmeaning

/-- No load succeeds with a document without meaning that counts at its level. -/
theorem not_load_of_document (h : IsDocumentOf source version level.value id p)
    (hfault : ¬p.document.HasMeaning) (r : Registry) :
    (load source version level).outcome ≠ .ok r := by
  intro hload
  obtain ⟨directory, ps, hloadable⟩ := exists_load_iff.mp ⟨r, hload⟩
  exact hfault (hloadable.documents id p h)

/-- Where a load at a higher level succeeds, one at a lower level does exactly if every document that
counts there and is replaced above has a meaning. A document without one fails the loads at which it
counts: as a header at every level from its own on, and else until a higher level replaces it. -/
theorem load_lower (source : Source) (version : Nat) {low high : SchemaLevel}
    (hlt : low.value < high.value) :
    ((∃ r, (load source version high).outcome = .ok r) →
      ((∃ r, (load source version low).outcome = .ok r) ↔
        ∀ id p, IsDocumentOf source version low.value id p →
          IsReplaced source version high.value p → p.document.HasMeaning)) ∧
    ∀ p, ¬p.document.HasMeaning →
      (Holds source version p → p.document.isHeader = true → p.level ≤ low.value → ∀ r,
        (load source version low).outcome ≠ .ok r ∧ (load source version high).outcome ≠ .ok r) ∧
      ∀ id, IsDocumentOf source version low.value id p → ∀ r,
        (load source version low).outcome ≠ .ok r ∧
        (¬IsReplaced source version high.value p → (load source version high).outcome ≠ .ok r) := by
  have hle := Nat.le_of_lt hlt
  refine ⟨fun hhigh => ⟨?_, ?_⟩, fun p hfault => ⟨?_, ?_⟩⟩
  · rintro ⟨r, hlow⟩ id p hp -
    obtain ⟨directory, ps, h⟩ := exists_load_iff.mp ⟨r, hlow⟩
    exact h.documents id p hp
  · intro hreplaced
    obtain ⟨directory, ps, h⟩ := exists_load_iff.mp hhigh
    refine exists_load_iff.mpr ⟨directory, ps, h.lower hle ?_⟩
    intro id p hp
    by_cases hkept : IsReplaced source version high.value p
    · exact hreplaced id p hp hkept
    · exact h.documents id p (hp.of_not_isReplaced hle hkept)
  · intro hheld hheader hwithin r
    exact ⟨not_load_of_header hheld hheader hwithin hfault r,
      not_load_of_header hheld hheader (Nat.le_trans hwithin hle) hfault r⟩
  · intro id hp r
    exact ⟨not_load_of_document hp hfault r, fun hkept =>
      not_load_of_document (hp.of_not_isReplaced hle hkept) hfault r⟩

/-- A source of two levels. The lower level declares a field of the schema A with a type that is
none, and the upper one replaces the schema. -/
def mendedSource : Source := .inline
  ("levels=[\x7blevel=0,name=\"L\"\x7d,\x7blevel=1,name=\"M\"\x7d]\n" ++
    "schemas=[\x7bid=\"HEADER\",level=0\x7d,\x7bid=\"HEADER\",level=1\x7d," ++
    "\x7bid=\"A\",level=0\x7d,\x7bid=\"A\",level=1\x7d]")
  [("a", "id=\"A\"\nlevel=\"L\"\n" ++
      "fields=[\x7bname=\"F\",type=\"QUAD\",mode=\"OPTIONAL\"\x7d]"),
    ("b", "id=\"A\"\nlevel=\"M\""), ("c", "id=\"HEADER\"\nlevel=\"L\""),
    ("d", "id=\"HEADER\"\nlevel=\"M\"")]

theorem load_mendedSource_high : ∃ r,
    (load mendedSource 201900 ⟨1, by decide⟩).outcome = .ok r ∧ r.schemaIds.contains "A" = true :=
  exists_load (by decide +kernel)

theorem load_mendedSource_low (r : Registry) :
    (load mendedSource 201900 .base).outcome ≠ .ok r := by
  have hfails : (load mendedSource 201900 .base).outcome.isOk = false := by
    decide +kernel
  intro hlow
  rw [hlow] at hfails
  cases hfails

/-- Only the schema A keeps the lower load of that source from success, as the upper level replaces
a document of it without meaning. -/
theorem load_lower_mended : ∃ id p,
    IsDocumentOf mendedSource 201900 SchemaLevel.base.value id p ∧
    IsReplaced mendedSource 201900 1 p ∧ ¬p.document.HasMeaning ∧
    ∀ r, (load mendedSource 201900 .base).outcome ≠ .ok r := by
  obtain ⟨r, hhigh, -⟩ := load_mendedSource_high
  have hlt : SchemaLevel.base.value < (⟨1, by decide⟩ : SchemaLevel).value := by decide
  obtain ⟨hlower, hfaulty⟩ := load_lower mendedSource 201900 hlt
  by_cases hall : ∀ id p, IsDocumentOf mendedSource 201900 SchemaLevel.base.value id p →
      IsReplaced mendedSource 201900 1 p → p.document.HasMeaning
  · obtain ⟨r', hlow⟩ := (hlower ⟨r, hhigh⟩).mpr hall
    exact absurd hlow (load_mendedSource_low r')
  · simp only [Classical.not_forall] at hall
    obtain ⟨id, p, hp, hreplaced, hfault⟩ := hall
    exact ⟨id, p, hp, hreplaced, hfault, fun r => ((hfaulty p hfault).2 id hp r).1⟩

/-- A load can succeed at a level and fail at one below. -/
theorem exists_load_not_lower : ∃ source version, ∃ low high : SchemaLevel, ∃ r,
    low.value < high.value ∧ (load source version high).outcome = .ok r ∧
    ∀ r', (load source version low).outcome ≠ .ok r' := by
  obtain ⟨r, hhigh, -⟩ := load_mendedSource_high
  exact ⟨mendedSource, 201900, .base, ⟨1, by decide⟩, r, by decide, hhigh, load_mendedSource_low⟩

end Registry

end BusCompliance
