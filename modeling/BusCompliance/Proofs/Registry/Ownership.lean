import BusCompliance.Proofs.Registry.BestMatch
import BusCompliance.Proofs.Registry.LowerLevels

/-!
# Who owns an alias

Of the entries that give an alias to a schema with a template, the highest one owns it, wherever it
stands in the directory. So the order of the entries decides nothing, unless two of one level give
the alias to different schemas.
-/

namespace BusCompliance

namespace Directory

variable {d d' : Directory} {id : String} {n : Nat}

/-- No two schemas have one alias at one level. -/
def IsUnambiguous (d : Directory) : Prop := ∀ e ∈ d.schemas, ∀ e' ∈ d.schemas,
  e.shortName ≠ none → e.shortName = e'.shortName → e.level = e'.level → e.id = e'.id

instance (d : Directory) : Decidable d.IsUnambiguous :=
  inferInstanceAs (Decidable (∀ e ∈ d.schemas, ∀ e' ∈ d.schemas,
    e.shortName ≠ none → e.shortName = e'.shortName → e.level = e'.level → e.id = e'.id))

/-- The same levels, and the same entries in some order. -/
structure IsReordered (d d' : Directory) : Prop where
  levels : d.levels = d'.levels
  schemas : d.schemas.Perm d'.schemas

theorem isSome_entry?_iff :
    (d.entry? id n).isSome = true ↔ ∃ e ∈ d.schemas, e.id = id ∧ e.level = n := by
  unfold entry?
  rw [List.find?_isSome]
  simp

theorem IsReordered.isSome_entry? (h : d.IsReordered d') (id : String) (n : Nat) :
    (d.entry? id n).isSome = (d'.entry? id n).isSome := by
  rw [Bool.eq_iff_iff, isSome_entry?_iff, isSome_entry?_iff]
  simp only [h.schemas.mem_iff]

theorem IsReordered.isUnambiguous (h : d.IsReordered d') (hclear : d.IsUnambiguous) :
    d'.IsUnambiguous :=
  fun e he e' he' => hclear e (h.schemas.mem_iff.mpr he) e' (h.schemas.mem_iff.mpr he')

theorem IsReordered.levelName?_eq (h : d.IsReordered d') (n : Nat) :
    d.levelName? n = d'.levelName? n := by
  unfold levelName?
  rw [h.levels]

theorem IsReordered.levelOf?_eq (h : d.IsReordered d') (name : String) :
    d.levelOf? name = d'.levelOf? name := by
  unfold levelOf?
  rw [h.levels]

end Directory

namespace Registry

variable {source source' : Source} {version top : Nat} {level : SchemaLevel} {r r' : Registry}
  {directory directory' : Directory} {ps : List Placed} {p : Placed} {names names' : List String}
  {e owner : SchemaEntry} {a id q : String} {t : Template}

/-! ## Owners -/

/-- Of the entries that declare an alias none is at a higher level. -/
structure Owns (directory : Directory) (top : Nat) (r : Registry) (a : String)
    (owner : SchemaEntry) : Prop where
  declares : Declares directory top r a owner
  highest : ∀ e, Declares directory top r a e → e.level ≤ owner.level

theorem version_of_load (h : (load source version level).outcome = .ok r) :
    r.version = version := by
  obtain ⟨directory, names, texts, ps, -, -, -, -, -, hassemble⟩ := load_eq_ok_iff.mp h
  obtain ⟨-, headers, templates, -, -, rfl⟩ := assemble_eq_ok_iff.mp hassemble
  rfl

theorem aliases_of_load (h : (load source version level).outcome = .ok r)
    (hdirectory : (source.readDirectory version).bind Directory.ofText = .ok directory) :
    r.aliases = aliasesOf (entriesUpTo directory level.value) r.templates := by
  obtain ⟨_, names, texts, ps, hread, -, -, -, -, hassemble⟩ := load_eq_ok_iff.mp h
  cases hread.symm.trans hdirectory
  obtain ⟨-, headers, templates, -, -, rfl⟩ := assemble_eq_ok_iff.mp hassemble
  rfl

theorem declares_of_mem_aliases
    (haliases : r.aliases = aliasesOf (entriesUpTo directory top) r.templates)
    {x : String × String} (hx : x ∈ r.aliases.toList) : ∃ e, Declares directory top r x.1 e := by
  rw [haliases] at hx
  obtain ⟨e, he, hname⟩ := List.mem_filterMap.mp (Roster.mem_of_mem_ofList hx)
  obtain ⟨a, ha, rfl⟩ := Option.map_eq_some_iff.mp hname
  rw [List.mem_mergeSort, List.mem_filter, mem_entriesUpTo_iff, contains_templates_iff] at he
  exact ⟨e, he.1.1, he.1.2, he.2, ha⟩

/-- An alias stands for what its owner gives it to. -/
theorem get?_aliases_iff
    (haliases : r.aliases = aliasesOf (entriesUpTo directory top) r.templates)
    (hclear : directory.IsUnambiguous) {x : String × String} : r.aliases.get? a = some x ↔
      ∃ owner, Owns directory top r a owner ∧ x = (a, owner.id) := by
  constructor
  · intro hget
    have hkey := Roster.key_of_get? hget
    obtain ⟨e, he⟩ := declares_of_mem_aliases haliases (Roster.mem_of_get? hget)
    rw [hkey] at he
    obtain ⟨owner, howner, hhighest, hown⟩ := exists_owner haliases he
    exact ⟨owner, ⟨howner, hhighest⟩, Option.some.inj (hget.symm.trans hown)⟩
  · rintro ⟨owner, ⟨howner, hhighest⟩, rfl⟩
    obtain ⟨other, hother, hhighest', hget⟩ := exists_owner haliases howner
    have hnamed : owner.shortName ≠ none := by
      rw [howner.shortName]
      exact Option.some_ne_none a
    rw [hget, hclear owner howner.mem other hother.mem hnamed
      (howner.shortName.trans hother.shortName.symm)
      (Nat.le_antisymm (hhighest' owner howner) (hhighest other hother))]

theorem findTemplate_alias (hfilled : Text.allBlank a = false) (hown : a ∉ r.schemaIds)
    (hplain : r.StandsFor a a) {name : String} (halias : r.aliases.get? a = some (name, id))
    (hget : r.templates.get? id = some t) : (r.findTemplate a).outcome = .ok t := by
  refine findTemplate_eq_ok_iff.mpr ⟨hfilled, Option.or_eq_some_iff.mpr (.inl ?_)⟩
  rw [standsFor_iff.mp hplain]
  exact byName?_eq_some_iff.mpr (.inr ⟨hown, name, id, halias, hget⟩)

/-! ## Ids that look-ups find -/

/-- The registries differ at most in what their templates say. -/
structure FindsAlike (r r' : Registry) : Prop where
  version : r.version = r'.version
  headers : r.headers = r'.headers
  aliases : r.aliases = r'.aliases
  listed : ∀ id, id ∈ r.schemaIds ↔ id ∈ r'.schemaIds

theorem FindsAlike.map_get? (h : FindsAlike r r') (id : String) :
    (r.templates.get? id).map Template.id = (r'.templates.get? id).map Template.id := by
  have hlisted := h.listed id
  cases hget : r.templates.get? id with
  | none =>
    rw [get?_eq_none_iff.mpr (mt hlisted.mpr (get?_eq_none_iff.mp hget))]
  | some t =>
    obtain ⟨u, hu⟩ := mem_schemaIds_iff.mp (hlisted.mp (mem_schemaIds_iff.mpr ⟨t, hget⟩))
    rw [hu, Option.map_some, Option.map_some, Roster.key_of_get? hget, Roster.key_of_get? hu]

theorem FindsAlike.map_byName? (h : FindsAlike r r') (q : String) :
    (r.byName? q).map Template.id = (r'.byName? q).map Template.id := by
  have hget := h.map_get? q
  unfold byName?
  rw [← h.aliases]
  cases hown : r.templates.get? q <;> cases hown' : r'.templates.get? q <;>
    rw [hown, hown'] at hget
  · simp only [Option.map_bind]
    congr 1
    funext x
    exact h.map_get? x.2
  · cases hget
  · cases hget
  · exact hget

theorem FindsAlike.map_byBase? (h : FindsAlike r r') (q : String) :
    (r.byBase? q).map Template.id = (r'.byBase? q).map Template.id := by
  unfold byBase?
  rw [List.map_findSome?, List.map_findSome?]
  congr 1
  funext base
  exact h.map_get? base

theorem map_findTemplate (r : Registry) (id : String) :
    (r.findTemplate id).outcome.map Template.id =
      if Text.allBlank id then .error .blankSchemaId
      else
        match ((r.byName? (r.unqualified id)).or (r.byBase? (r.unqualified id))).map Template.id with
        | some found => .ok found
        | none => .error (.unknownSchema id) := by
  rw [outcome_findTemplate]
  split
  · rfl
  · cases (r.byName? (r.unqualified id)).or (r.byBase? (r.unqualified id)) <;> rfl

theorem FindsAlike.map_findTemplate (h : FindsAlike r r') (id : String) :
    (r.findTemplate id).outcome.map Template.id = (r'.findTemplate id).outcome.map Template.id := by
  have hbare : r.unqualified id = r'.unqualified id := by
    unfold unqualified headerNamed?
    rw [h.version, h.headers]
  rw [Registry.map_findTemplate, Registry.map_findTemplate, Option.map_or, Option.map_or, hbare,
    h.map_byName?, h.map_byBase?]

/-! ## Directories in another order -/

theorem levelName_reordered (h : directory.IsReordered directory') :
    levelName directory = levelName directory' := by
  funext n
  have hentry := h.isSome_entry? headerId n
  unfold levelName
  rw [h.levelName?_eq n, ← Option.not_isSome, ← Option.not_isSome, hentry]

theorem Places.reordered (h : directory.IsReordered directory') {text : String × String}
    (hplaces : Places directory text p) : Places directory' text p :=
  ⟨hplaces.1, (h.levelOf?_eq _).symm.trans hplaces.2⟩

theorem Reads.reordered (h : directory.IsReordered directory')
    (hdirectory : (source'.readDirectory version).bind Directory.ofText = .ok directory')
    (hdocuments : (source'.readDocuments version).outcome = (source.readDocuments version).outcome)
    (hreads : Reads source version directory ps) : Reads source' version directory' ps := by
  obtain ⟨texts, -, htexts, hplaces⟩ := hreads
  exact ⟨texts, hdirectory, hdocuments.trans htexts, hplaces.imp fun _ _ => Places.reordered h⟩

theorem isDocumentOf_iff_of_reads (hreads : Reads source version directory ps)
    (hreads' : Reads source' version directory' ps) :
    IsDocumentOf source version top id p ↔ IsDocumentOf source' version top id p := by
  rw [← isHighest_iff hreads, ← isHighest_iff hreads']

theorem IsLoadable.reordered (h : IsLoadable source version top directory ps)
    (horder : directory.IsReordered directory') (hreads : Reads source' version directory' ps) :
    IsLoadable source' version top directory' ps where
  reads := hreads
  levels n hn := by
    rw [← horder.levelName?_eq, ← horder.isSome_entry?]
    exact h.levels n hn
  distinct := h.distinct
  listed p hp hwithin := by
    rw [← horder.isSome_entry?]
    exact h.listed p hp hwithin
  present e he := h.present e (horder.schemas.mem_iff.mpr he)
  headers := h.headers
  documents id p hp := h.documents id p ((isDocumentOf_iff_of_reads h.reads hreads).mpr hp)

theorem owns_reordered_iff (horder : directory.IsReordered directory')
    (hlisted : ∀ id, id ∈ r.schemaIds ↔ id ∈ r'.schemaIds) :
    Owns directory top r a e ↔ Owns directory' top r' a e := by
  have hdeclares (e : SchemaEntry) :
      Declares directory top r a e ↔ Declares directory' top r' a e := by
    constructor
    · rintro ⟨hmem, hwithin, hlist, hname⟩
      exact ⟨horder.schemas.mem_iff.mp hmem, hwithin, (hlisted e.id).mp hlist, hname⟩
    · rintro ⟨hmem, hwithin, hlist, hname⟩
      exact ⟨horder.schemas.mem_iff.mpr hmem, hwithin, (hlisted e.id).mpr hlist, hname⟩
  constructor
  · rintro ⟨howner, hhighest⟩
    exact ⟨(hdeclares e).mp howner, fun e he => hhighest e ((hdeclares e).mpr he)⟩
  · rintro ⟨howner, hhighest⟩
    exact ⟨(hdeclares e).mpr howner, fun e he => hhighest e ((hdeclares e).mp he)⟩

theorem LoadedFrom.findsAlike (h : LoadedFrom source version level directory names ps r)
    (h' : LoadedFrom source' version level directory' names' ps r')
    (horder : directory.IsReordered directory') (hclear : directory.IsUnambiguous)
    (hload : (load source version level).outcome = .ok r)
    (hload' : (load source' version level).outcome = .ok r') : FindsAlike r r' := by
  have hlisted (id : String) : id ∈ r.schemaIds ↔ id ∈ r'.schemaIds := by
    rw [h.mem_schemaIds_iff, h'.mem_schemaIds_iff]
    simp only [isDocumentOf_iff_of_reads h.reads h'.reads]
  refine ⟨(version_of_load hload).trans (version_of_load hload').symm, ?_, ?_, hlisted⟩
  · have hnames := h.levels
    rw [levelName_reordered horder, h'.levels] at hnames
    have hheaders := h.headers
    rw [← Except.ok.inj hnames, h'.headers] at hheaders
    exact (Except.ok.inj hheaders).symm
  · obtain ⟨_, hdirectory, -⟩ := h.reads
    obtain ⟨_, hdirectory', -⟩ := h'.reads
    apply Roster.ext_get?
    intro a
    apply Option.ext
    intro x
    rw [get?_aliases_iff (aliases_of_load hload hdirectory) hclear,
      get?_aliases_iff (aliases_of_load hload' hdirectory') (horder.isUnambiguous hclear)]
    simp only [owns_reordered_iff horder hlisted]

/-- What is given to several schemas as an alias finds the template of one that has it at the highest
of their levels. In what order the directory lists the schemas makes no difference to any look-up,
if no two of them have one alias at one level. -/
theorem load_owned (hload : (load source version level).outcome = .ok r)
    (hdirectory : (source.readDirectory version).bind Directory.ofText = .ok directory) :
    (∀ a e, Text.allBlank a = false → a ∉ r.schemaIds → r.StandsFor a a →
      Declares directory level.value r a e → ∃ owner t, Owns directory level.value r a owner ∧
        r.templates.get? owner.id = some t ∧ (r.findTemplate a).outcome = .ok t) ∧
    ∀ source' directory', (source'.readDirectory version).bind Directory.ofText = .ok directory' →
      (source'.readDocuments version).outcome = (source.readDocuments version).outcome →
      directory.IsReordered directory' → directory.IsUnambiguous →
      ∃ r', (load source' version level).outcome = .ok r' ∧ ∀ a,
        (r.findTemplate a).outcome.map Template.id =
          (r'.findTemplate a).outcome.map Template.id := by
  constructor
  · intro a e hfilled hown hplain he
    obtain ⟨owner, howner, hhighest, halias⟩ :=
      exists_owner (aliases_of_load hload hdirectory) he
    obtain ⟨t, ht⟩ := mem_schemaIds_iff.mp howner.listed
    exact ⟨owner, t, ⟨howner, hhighest⟩, ht, findTemplate_alias hfilled hown hplain halias ht⟩
  · intro source' directory' hdirectory' hdocuments horder hclear
    obtain ⟨_, names, ps, h⟩ := exists_loadedFrom hload
    obtain ⟨_, ps', hloadable⟩ := exists_load_iff.mp ⟨r, hload⟩
    obtain ⟨rfl, rfl⟩ := h.reads.unique hloadable.reads
    obtain ⟨_, hread, -⟩ := id h.reads
    cases hread.symm.trans hdirectory
    have hreads' := h.reads.reordered horder hdirectory' hdocuments
    obtain ⟨r', hload'⟩ := exists_load_iff.mpr ⟨_, _, hloadable.reordered horder hreads'⟩
    obtain ⟨_, names', ps', h'⟩ := exists_loadedFrom hload'
    obtain ⟨rfl, rfl⟩ := h'.reads.unique hreads'
    exact ⟨r', hload', (h.findsAlike h' horder hclear hload hload').map_findTemplate⟩

/-- A source of two levels with a schema of each, listed in some order. -/
def ownedSource (first second : String) : Source := .inline
  ("levels=[\x7blevel=0,name=\"L\"\x7d,\x7blevel=1,name=\"M\"\x7d]\n" ++
    "schemas=[\x7bid=\"HEADER\",level=0\x7d,\x7bid=\"HEADER\",level=1\x7d," ++
    first ++ "," ++ second ++ "]")
  [("a", "id=\"A\"\nlevel=\"L\""), ("b", "id=\"B\"\nlevel=\"M\""),
    ("c", "id=\"HEADER\"\nlevel=\"L\""), ("d", "id=\"HEADER\"\nlevel=\"M\"")]

def lowerText : String := "\x7bid=\"A\",level=0,alias=\"X\"\x7d"

def upperText : String := "\x7bid=\"B\",level=1,alias=\"X\"\x7d"

def lowerEntry : SchemaEntry := ⟨"A", 0, [], some "X", false⟩

def upperEntry : SchemaEntry := ⟨"B", 1, [], some "X", false⟩

def owned (first second : SchemaEntry) : Directory where
  levels := [⟨0, "L"⟩, ⟨1, "M"⟩]
  schemas := [⟨headerId, 0, [], none, false⟩, ⟨headerId, 1, [], none, false⟩, first, second]

theorem readDirectory_ownedSource :
    ((ownedSource upperText lowerText).readDirectory 201900).bind Directory.ofText =
      .ok (owned upperEntry lowerEntry) ∧
    ((ownedSource lowerText upperText).readDirectory 201900).bind Directory.ofText =
      .ok (owned lowerEntry upperEntry) := by
  decide +kernel

theorem load_ownedSource : ∃ r,
    (load (ownedSource upperText lowerText) 201900 ⟨1, by decide⟩).outcome = .ok r ∧
      decide ("X" ∉ r.schemaIds ∧ "B" ∈ r.schemaIds ∧ r.unqualified "X" = "X") = true :=
  exists_load (by decide +kernel)

/-- The alias X stands for the schema of the upper level, whichever entry comes first. -/
theorem load_owned_upper : ∃ r r' t,
    (load (ownedSource upperText lowerText) 201900 ⟨1, by decide⟩).outcome = .ok r ∧
    (load (ownedSource lowerText upperText) 201900 ⟨1, by decide⟩).outcome = .ok r' ∧
    (r.findTemplate "X").outcome = .ok t ∧ t.id = "B" ∧
    (r'.findTemplate "X").outcome.map Template.id = .ok "B" := by
  obtain ⟨r, hload, hfacts⟩ := load_ownedSource
  obtain ⟨hX, hB, hplain⟩ := of_decide_eq_true hfacts
  obtain ⟨hdirectory, hdirectory'⟩ := readDirectory_ownedSource
  have hupper : Declares (owned upperEntry lowerEntry) 1 r "X" upperEntry :=
    ⟨by decide, by decide, hB, rfl⟩
  obtain ⟨howned, hordered⟩ := load_owned hload hdirectory
  obtain ⟨owner, t, ⟨howner, hhighest⟩, ht, hfound⟩ :=
    howned "X" upperEntry (by decide) hX (standsFor_iff.mpr hplain) hupper
  have honly : ∀ e ∈ (owned upperEntry lowerEntry).schemas,
      e.shortName = some "X" → 1 ≤ e.level → e.id = "B" := by decide
  have hid : t.id = "B" := (Roster.key_of_get? ht).trans
    (honly owner howner.mem howner.shortName (hhighest upperEntry hupper))
  obtain ⟨r', hload', hsame⟩ := hordered _ _ hdirectory' rfl ⟨rfl, by decide⟩ (by decide)
  refine ⟨r, r', t, hload, hload', hfound, hid, ?_⟩
  rw [← hsame "X", hfound]
  exact congrArg Except.ok hid

end Registry

end BusCompliance
