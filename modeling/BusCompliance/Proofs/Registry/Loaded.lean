import BusCompliance.Proofs.Registry.Listed
import BusCompliance.Proofs.Registry.LoadOrder
import BusCompliance.Proofs.Template.Overlay

/-!
# What a load is made of

All loads of a version of a source read the same documents. A load at a level counts those up to it:
the template of a schema is made of its highest document, over the header of the highest level.
-/

namespace BusCompliance.Registry

variable {source : Source} {version top : Nat} {level : SchemaLevel} {r : Registry}
  {directory : Directory} {ps : List Placed} {p q : Placed} {id : String} {t : Template}
  {names : List String}

/-! ## What a source holds -/

theorem Places.unique {text : String × String} (hp : Places directory text p)
    (hq : Places directory text q) : p = q := by
  obtain ⟨levelP, documentP⟩ := p
  obtain ⟨levelQ, documentQ⟩ := q
  obtain ⟨hdocument, hlevel⟩ := hp
  obtain ⟨hdocument', hlevel'⟩ := hq
  cases hdocument.symm.trans hdocument'
  cases hlevel.symm.trans hlevel'
  rfl

/-- The directory of a version, and its documents at the levels that they name. -/
def Reads (source : Source) (version : Nat) (directory : Directory) (ps : List Placed) : Prop :=
  ∃ texts, (source.readDirectory version).bind Directory.ofText = .ok directory ∧
    (source.readDocuments version).outcome = .ok texts ∧
    List.Forall₂ (Places directory) texts ps

theorem Reads.unique {directory' : Directory} {qs : List Placed}
    (h : Reads source version directory ps) (h' : Reads source version directory' qs) :
    directory = directory' ∧ ps = qs := by
  obtain ⟨texts, hdirectory, htexts, hplaces⟩ := h
  obtain ⟨texts', hdirectory', htexts', hplaces'⟩ := h'
  cases hdirectory.symm.trans hdirectory'
  cases htexts.symm.trans htexts'
  exact ⟨rfl, List.right_unique_forall₂' (fun _ _ _ hp hq => hp.unique hq) hplaces hplaces'⟩

/-- The source has the document, at the level that it names. -/
def Holds (source : Source) (version : Nat) (p : Placed) : Prop :=
  ∃ directory ps, Reads source version directory ps ∧ p ∈ ps

theorem Reads.holds_iff (h : Reads source version directory ps) :
    Holds source version p ↔ p ∈ ps := by
  constructor
  · rintro ⟨directory', qs, h', hp⟩
    rwa [(h.unique h').2]
  · intro hp
    exact ⟨directory, ps, h, hp⟩

theorem Holds.exists_text (h : Holds source version p) : ∃ texts,
    (source.readDocuments version).outcome = .ok texts ∧
    ∃ text ∈ texts, SchemaDocument.ofText text.1 text.2 = .ok p.document := by
  obtain ⟨directory, ps, ⟨texts, -, htexts, hplaces⟩, hp⟩ := h
  refine ⟨texts, htexts, ?_⟩
  clear htexts
  induction hplaces with
  | nil => cases hp
  | cons hplaced _ ih =>
    rcases List.mem_cons.mp hp with rfl | hp
    · exact ⟨_, List.mem_cons_self, hplaced.1⟩
    · obtain ⟨text, htext, hdocument⟩ := ih hp
      exact ⟨text, List.mem_cons_of_mem _ htext, hdocument⟩

/-- The document of a schema at a level: the highest of those that count there. -/
structure IsDocumentOf (source : Source) (version top : Nat) (id : String) (p : Placed) :
    Prop where
  held : Holds source version p
  schema : p.document.id = id
  content : p.document.isHeader = false
  within : p.level ≤ top
  highest : ∀ q, Holds source version q → q.document.id = id → q.level ≤ top → q.level ≤ p.level

/-! ## Headers over headers -/

/-- The documents that count at a level. -/
def counted (top : Nat) (ps : List Placed) : List Placed := ps.filter (·.level ≤ top)

theorem mem_counted_iff : p ∈ counted top ps ↔ p ∈ ps ∧ p.level ≤ top := by
  unfold counted
  rw [List.mem_filter, decide_eq_true_iff]

/-- The fields of the highest of some headers. -/
def fieldsOf (headers : List Header) : List FieldSpec :=
  (headers.getLast?.map (·.fields)).getD []

/-- The subject of the highest of some headers. -/
def elementsOf (headers : List Header) : List SubjectElement :=
  (headers.getLast?.map (·.subject)).getD []

/-- The header that a document makes over those below it. -/
def headerOver (headers : List Header) (name : String) (specs : List FieldSpec)
    (own : List SubjectElement) : Header :=
  ⟨name, FieldSpec.overlay (fieldsOf headers) specs,
    if own.isEmpty then elementsOf headers else own⟩

/-- The document is the first header of a level. -/
def IsFirstHeader (placed : List Placed) (n : Nat) (p : Placed) : Prop :=
  placed.find? (fun q => q.document.isHeader && q.level == n) = some p

/-- The first header of a level is the only document of its key. -/
theorem isFirstHeader_iff {n : Nat} (hdistinct : (ps.map Placed.key).Nodup) :
    IsFirstHeader ps n p ↔ p ∈ ps ∧ p.key = (headerId, n) := by
  have hkey (q : Placed) : (q.document.isHeader && q.level == n) = true ↔
      q.key = (headerId, n) := by
    unfold SchemaDocument.isHeader Placed.key
    simp
  constructor
  · intro h
    have hfound := List.find?_some h
    exact ⟨List.mem_of_find?_eq_some h, (hkey p).mp hfound⟩
  · rintro ⟨hp, hpkey⟩
    have hfirst : (ps.find? fun q => q.document.isHeader && q.level == n).isSome = true := by
      rw [List.find?_isSome]
      exact ⟨p, hp, (hkey p).mpr hpkey⟩
    obtain ⟨q, hq⟩ := Option.isSome_iff_exists.mp hfirst
    have hfound := List.find?_some hq
    rwa [eq_of_key hdistinct (List.mem_of_find?_eq_some hq) hp
      (((hkey q).mp hfound).trans hpkey.symm)] at hq

theorem addHeader_eq_ok_iff {placed : List Placed} {headers headers' : List Header} {n : Nat}
    {name : String} : addHeader placed headers n name = .ok headers' ↔
      ∃ p specs own, IsFirstHeader placed n p ∧ p.document.fieldSpecs = .ok specs ∧
        p.document.subjectElements = .ok own ∧
        headers' = headers ++ [headerOver headers name specs own] := by
  unfold addHeader IsFirstHeader
  cases placed.find? fun q => q.document.isHeader && q.level == n with
  | none =>
    constructor
    · rintro ⟨⟩
    · rintro ⟨p, specs, own, ⟨⟩, -⟩
  | some p =>
    simp only [bind_eq_ok_iff]
    constructor
    · rintro ⟨specs, hspecs, own, hown, ⟨⟩⟩
      exact ⟨p, specs, own, rfl, hspecs, hown, rfl⟩
    · rintro ⟨_, specs, own, ⟨⟩, hspecs, hown, rfl⟩
      exact ⟨specs, hspecs, own, hown, rfl⟩

theorem fieldsOf_concat (headers : List Header) (header : Header) :
    fieldsOf (headers ++ [header]) = header.fields := by
  unfold fieldsOf
  simp

/-- Lay headers of named levels over others. -/
def addHeaders (placed : List Placed) (headers : List Header) (levels : List (String × Nat)) :
    Except Error (List Header) :=
  levels.foldlM (fun headers (name, level) => addHeader placed headers level name) headers

variable {headers headers' : List Header} {levels : List (String × Nat)}

/-- What the overlay of each header keeps holds of the fields of the highest one. -/
theorem fieldsOf_induction {P : List FieldSpec → Prop}
    (h : addHeaders ps headers levels = .ok headers') (hstart : P (fieldsOf headers))
    (hstep : ∀ base d specs, SchemaDocument.fieldSpecs d = .ok specs → P base →
      P (FieldSpec.overlay base specs)) : P (fieldsOf headers') := by
  refine foldlM_induction (P := fun headers => P (fieldsOf headers)) h hstart ?_
  rintro below ⟨name, n⟩ above - hadd hbelow
  obtain ⟨p, specs, own, -, hspecs, -, rfl⟩ := addHeader_eq_ok_iff.mp hadd
  rw [fieldsOf_concat]
  exact hstep (fieldsOf below) p.document specs hspecs hbelow

theorem nodup_addHeaders (h : addHeaders ps [] levels = .ok headers) :
    ((fieldsOf headers).map (·.name)).Nodup := by
  refine fieldsOf_induction (P := fun specs => (specs.map (·.name)).Nodup) h List.nodup_nil ?_
  intro base d specs _ hbase
  exact FieldSpec.nodup_overlay hbase specs

theorem length_addHeaders (h : addHeaders ps headers levels = .ok headers') :
    headers'.length = headers.length + levels.length := by
  unfold addHeaders at h
  induction levels generalizing headers with
  | nil =>
    cases h
    rfl
  | cons level levels ih =>
    obtain ⟨below, hadd, hrest⟩ := bind_eq_ok_iff.mp h
    obtain ⟨p, specs, own, -, -, -, rfl⟩ := addHeader_eq_ok_iff.mp hadd
    rw [ih hrest, List.length_append, List.length_cons, List.length_cons, List.length_nil]
    omega

theorem addHeader_counted {n : Nat} (h : n ≤ top) (ps : List Placed) (headers : List Header)
    (name : String) : addHeader (counted top ps) headers n name = addHeader ps headers n name := by
  unfold addHeader counted
  have hfind : (ps.filter (·.level ≤ top)).find? (fun p => p.document.isHeader && p.level == n) =
      ps.find? (fun p => p.document.isHeader && p.level == n) := by
    rw [List.find?_filter]
    congr 1
    funext p
    by_cases hn : p.level = n
    · simp [hn, h]
    · simp [hn]
  rw [hfind]

/-- The headers up to a level are made of documents that count there. -/
theorem addHeaders_counted (h : ∀ l ∈ levels, l.2 ≤ top) (ps : List Placed)
    (headers : List Header) :
    addHeaders (counted top ps) headers levels = addHeaders ps headers levels := by
  refine foldlM_congr ?_ headers
  intro below l hl
  exact addHeader_counted (h l hl) ps below l.1

/-! ## What a load is made of -/

/-- A registry and what it was made of. -/
structure LoadedFrom (source : Source) (version : Nat) (level : SchemaLevel) (directory : Directory)
    (names : List String) (ps : List Placed) (r : Registry) : Prop where
  level_eq : r.level = level
  reads : Reads source version directory ps
  levels : (List.range (level.value + 1)).mapM (levelName directory) = .ok names
  fits : Fits directory level.value [] ps
  headers : addHeaders ps [] names.zipIdx = .ok r.headers
  definitions : r.definitions = (entriesUpTo directory level.value).map (definitionOf directory)
  templates : ∃ templates, (templateDocuments (counted level.value ps)).toList.mapM
    (templateOf (r.activeHeader?.getD ⟨"", [], []⟩) r.definitions) = .ok templates ∧
      r.templates = .ofList templates

theorem length_levelNames (h : (List.range top).mapM (levelName directory) = .ok names) :
    names.length = top := by
  rw [← (mapM_eq_ok_iff.mp h).length_eq, List.length_range]

theorem exists_loadedFrom (h : (load source version level).outcome = .ok r) :
    ∃ directory names ps, LoadedFrom source version level directory names ps r := by
  obtain ⟨directory, names, texts, ps, hdirectory, hnames, htexts, hplaces, hfits, hassemble⟩ :=
    load_eq_ok_iff.mp h
  obtain ⟨-, headers, templates, hheaders, htemplates, rfl⟩ := assemble_eq_ok_iff.mp hassemble
  refine ⟨directory, names, ps, rfl, ⟨texts, hdirectory, htexts, hplaces⟩, hnames, hfits, ?_, rfl,
    templates, htemplates, rfl⟩
  rw [← addHeaders_counted ?_ ps []]
  · exact hheaders
  · intro l hl
    have hindex := List.snd_lt_of_mem_zipIdx hl
    rw [length_levelNames hnames] at hindex
    omega

theorem LoadedFrom.withLearning (h : LoadedFrom source version level directory names ps r)
    (learns : Bool) : LoadedFrom source version level directory names ps (r.withLearning learns) :=
  ⟨h.level_eq, h.reads, h.levels, h.fits, h.headers, h.definitions, h.templates⟩

/-! ## Definitions -/

theorem mem_of_definition? {n : Nat} {d : Definition} (h : r.definition? id n = some d) :
    d ∈ r.definitions ∧ d.id = id := by
  have hfound := List.find?_some h
  simp only [Bool.and_eq_true, beq_iff_eq] at hfound
  exact ⟨List.mem_of_find?_eq_some h, hfound.1⟩

/-- The first entry of a key makes up the ids of its schema. -/
theorem find?_definitionOf (directory : Directory) (id : String) {n : Nat} (hn : n ≤ top) :
    ((entriesUpTo directory top).map (definitionOf directory)).find?
        (fun d => d.id == id && d.level == n) =
      (directory.entry? id n).map (definitionOf directory) := by
  unfold entriesUpTo Directory.entry?
  rw [List.find?_map, List.find?_filter]
  congr 1
  congr 1
  funext e
  simp only [Function.comp_apply, definitionOf]
  by_cases hlevel : e.level = n
  · simp [hlevel, hn, beq_eq_decide]
  · simp [hlevel]

/-- A registry knows the entries of the directory up to its level. -/
theorem LoadedFrom.definition?_eq (h : LoadedFrom source version level directory names ps r)
    {n : Nat} (hn : n ≤ level.value) (id : String) :
    r.definition? id n = (directory.entry? id n).map (definitionOf directory) := by
  unfold definition?
  rw [h.definitions]
  exact find?_definitionOf directory id hn

/-- What counts is in the directory, so it is known what makes up its id. -/
theorem LoadedFrom.exists_definition (h : LoadedFrom source version level directory names ps r)
    (hheld : Holds source version p) (hwithin : p.level ≤ level.value) :
    ∃ d, r.definition? p.document.id p.level = some d := by
  obtain ⟨e, he⟩ := Option.isSome_iff_exists.mp
    (h.fits.listed p (h.reads.holds_iff.mp hheld) hwithin)
  rw [h.definition?_eq hwithin, he]
  exact ⟨definitionOf directory e, rfl⟩

/-! ## Templates -/

theorem isHighest_iff (hreads : Reads source version directory ps) :
    IsHighest ((counted top ps).filter fun p => !p.document.isHeader) id (some p) ↔
      IsDocumentOf source version top id p := by
  unfold IsHighest
  simp only [List.mem_filter, mem_counted_iff, Bool.not_eq_true', ← hreads.holds_iff]
  constructor
  · rintro ⟨⟨⟨hheld, hwithin⟩, hcontent⟩, hid, hhighest⟩
    refine ⟨hheld, hid, hcontent, hwithin, ?_⟩
    intro q hq hqid hqtop
    refine hhighest q ⟨⟨hq, hqtop⟩, ?_⟩ hqid
    unfold SchemaDocument.isHeader at hcontent ⊢
    rwa [hqid, ← hid]
  · rintro ⟨hheld, hid, hcontent, hwithin, hhighest⟩
    exact ⟨⟨⟨hheld, hwithin⟩, hcontent⟩, hid, fun q hq hqid => hhighest q hq.1.1 hqid hq.1.2⟩

theorem IsDocumentOf.unique (hreads : Reads source version directory ps)
    (hdistinct : (ps.map Placed.key).Nodup) (hp : IsDocumentOf source version top id p)
    (hq : IsDocumentOf source version top id q) : p = q := by
  apply eq_of_key hdistinct (hreads.holds_iff.mp hp.held) (hreads.holds_iff.mp hq.held)
  have hlevel : p.level = q.level :=
    Nat.le_antisymm (hq.highest p hp.held hp.schema hp.within)
      (hp.highest q hq.held hq.schema hq.within)
  unfold Placed.key
  rw [hp.schema, hq.schema, hlevel]

theorem isHighest_templateDocuments (top : Nat) (ps : List Placed) (id : String) :
    IsHighest ((counted top ps).filter fun p => !p.document.isHeader) id
      ((templateDocuments (counted top ps)).get? id) :=
  isHighest_foldl_keepHighest _ id

theorem get?_templateDocuments_iff (hreads : Reads source version directory ps)
    (hdistinct : (ps.map Placed.key).Nodup) :
    (templateDocuments (counted top ps)).get? id = some p ↔
      IsDocumentOf source version top id p := by
  have hkept := isHighest_templateDocuments top ps id
  constructor
  · intro h
    rw [h] at hkept
    exact (isHighest_iff hreads).mp hkept
  · intro h
    cases hget : (templateDocuments (counted top ps)).get? id with
    | none =>
      rw [hget] at hkept
      exact absurd h.schema (hkept p ((isHighest_iff hreads).mpr h).1)
    | some q =>
      rw [hget] at hkept
      rw [((isHighest_iff hreads).mp hkept).unique hreads hdistinct h]

/-- A schema that has a document which counts has a highest one. -/
theorem exists_isDocumentOf (hreads : Reads source version directory ps)
    (hheld : Holds source version p) (hcontent : p.document.isHeader = false)
    (hwithin : p.level ≤ top) : ∃ q, IsDocumentOf source version top p.document.id q := by
  have hkept := isHighest_templateDocuments top ps p.document.id
  cases hget : (templateDocuments (counted top ps)).get? p.document.id with
  | none =>
    rw [hget] at hkept
    refine absurd rfl (hkept p (List.mem_filter.mpr ⟨?_, ?_⟩))
    · exact mem_counted_iff.mpr ⟨hreads.holds_iff.mp hheld, hwithin⟩
    · rw [hcontent]
      rfl
  | some q =>
    rw [hget] at hkept
    exact ⟨q, (isHighest_iff hreads).mp hkept⟩

theorem templateOf_eq_ok_iff {active : Header} {definitions : List Definition} :
    templateOf active definitions p = .ok t ↔ ∃ own elements level,
      p.document.fieldSpecs = .ok own ∧ p.document.subjectElements = .ok elements ∧
        SchemaLevel.ofNat p.level = .ok level ∧ t = {
          id := p.document.id, level, description := p.document.description
          subject := active.subject ++ elements
          fields := FieldSpec.overlay
            (((((definitions.find? fun d => d.id == p.document.id && d.level == p.level).map
              (·.fields)).getD []).zip (Text.segments p.document.id)).foldl setDefault
                active.fields) own } := by
  unfold templateOf
  simp only [bind_eq_ok_iff]
  constructor
  · rintro ⟨own, hown, elements, helements, level, hlevel, ⟨⟩⟩
    exact ⟨own, elements, level, hown, helements, hlevel, rfl⟩
  · rintro ⟨own, elements, level, hown, helements, hlevel, rfl⟩
    exact ⟨own, hown, elements, helements, level, hlevel, rfl⟩

theorem templateOf_eq_ok {active : Header} {definitions : List Definition}
    (h : templateOf active definitions p = .ok t) :
    t.id = p.document.id ∧ t.level.value = p.level ∧
      ∃ own, p.document.fieldSpecs = .ok own ∧
        t.fields = FieldSpec.overlay
          (((((definitions.find? fun d => d.id == p.document.id && d.level == p.level).map
            (·.fields)).getD []).zip (Text.segments p.document.id)).foldl setDefault
              active.fields) own := by
  obtain ⟨own, elements, level, hown, -, hlevel, rfl⟩ := templateOf_eq_ok_iff.mp h
  refine ⟨rfl, ?_, own, hown, rfl⟩
  unfold SchemaLevel.ofNat at hlevel
  split at hlevel
  · cases hlevel
    rfl
  · cases hlevel

/-- The template of a schema is made of the document of the schema. -/
theorem LoadedFrom.get?_templates_iff (h : LoadedFrom source version level directory names ps r) :
    r.templates.get? id = some t ↔ ∃ p, IsDocumentOf source version level.value id p ∧
      templateOf (r.activeHeader?.getD ⟨"", [], []⟩) r.definitions p = .ok t := by
  obtain ⟨templates, htemplates, hlisted⟩ := h.templates
  simp only [← get?_templateDocuments_iff h.reads h.fits.distinct]
  rw [hlisted]
  constructor
  · intro hget
    obtain ⟨p, hp, hmade⟩ :=
      (mem_iff_of_mapM htemplates).mp (Roster.mem_of_mem_ofList (Roster.mem_of_get? hget))
    refine ⟨p, ?_, hmade⟩
    rw [← Roster.key_of_get? hget, (templateOf_eq_ok hmade).1]
    exact Roster.get?_of_mem hp
  · rintro ⟨p, hget, hmade⟩
    have ht := (mem_iff_of_mapM htemplates).mpr ⟨p, Roster.mem_of_get? hget, hmade⟩
    rw [← Roster.key_of_get? hget, ← (templateOf_eq_ok hmade).1]
    refine Roster.get?_ofList ht ?_
    intro u hu hid
    obtain ⟨q, hq, hmade'⟩ := (mem_iff_of_mapM htemplates).mp hu
    have hsame : q = p := by
      have hget' := Roster.get?_of_mem hq
      rw [← (templateOf_eq_ok hmade').1, hid, (templateOf_eq_ok hmade).1,
        Roster.key_of_get? hget, hget] at hget'
      exact (Option.some.inj hget').symm
    rw [hsame, hmade] at hmade'
    exact (Except.ok.inj hmade').symm

theorem LoadedFrom.mem_schemaIds_iff (h : LoadedFrom source version level directory names ps r) :
    id ∈ r.schemaIds ↔ ∃ p, IsDocumentOf source version level.value id p := by
  rw [Registry.mem_schemaIds_iff]
  constructor
  · rintro ⟨t, hget⟩
    obtain ⟨p, hp, -⟩ := h.get?_templates_iff.mp hget
    exact ⟨p, hp⟩
  · rintro ⟨p, hp⟩
    obtain ⟨templates, htemplates, -⟩ := h.templates
    have hget := (get?_templateDocuments_iff h.reads h.fits.distinct).mpr hp
    obtain ⟨t, ht⟩ := exists_mapM_iff.mp ⟨_, htemplates⟩ p (Roster.mem_of_get? hget)
    exact ⟨t, h.get?_templates_iff.mpr ⟨p, hp, ht⟩⟩

/-! ## Headers -/

theorem LoadedFrom.length_headers (h : LoadedFrom source version level directory names ps r) :
    r.headers.length = level.value + 1 := by
  rw [length_addHeaders h.headers, List.length_nil, List.length_zipIdx, length_levelNames h.levels,
    Nat.zero_add]

theorem LoadedFrom.exists_activeHeader
    (h : LoadedFrom source version level directory names ps r) :
    ∃ header, r.activeHeader? = some header := by
  cases hactive : r.activeHeader? with
  | none =>
    have hlength := h.length_headers
    rw [List.getLast?_eq_none_iff.mp hactive] at hlength
    cases hlength
  | some header => exact ⟨header, rfl⟩

theorem LoadedFrom.nodup_headerSpecs
    (h : LoadedFrom source version level directory names ps r) :
    (r.headerSpecs.map (·.name)).Nodup := nodup_addHeaders h.headers

end BusCompliance.Registry
