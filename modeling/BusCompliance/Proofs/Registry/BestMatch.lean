import BusCompliance.Proofs.Registry.Repetition

/-!
# The best match of an id

An id is looked up by what it stands for: what follows the version and the name of a level, or the
id itself. For that there is one best match at most: the template of its own, the one that it is an
alias of, or the template of its longest stem.
-/

namespace BusCompliance.Registry

variable {r : Registry} {id q s level : String} {t : Template}

/-! ## Stems -/

/-- The id begins with the segments of the stem, of which there are at least two, and has more. -/
def IsStem (s q : String) : Prop := (∃ rest, q = s ++ "." ++ rest) ∧ '.' ∈ s.toList

theorem mem_bases_iff_isStem : s ∈ bases q ↔ IsStem s q := by
  rw [mem_bases_iff]
  constructor
  · rintro ⟨n, htwo, hlt, rfl⟩
    have htake : Text.segments (Text.join ((Text.segments q).take n)) = (Text.segments q).take n :=
      Text.segments_join_take (by omega)
    refine ⟨⟨Text.join ((Text.segments q).drop n), Text.segments_injective ?_⟩, ?_⟩
    · rw [Text.segments_append, htake, Text.segments_join_drop hlt, List.take_append_drop]
    · rw [← Text.one_lt_length_segments_iff, htake, List.length_take]
      omega
  · rintro ⟨⟨rest, rfl⟩, hdot⟩
    have hrest := Text.length_segments_pos rest
    refine ⟨(Text.segments s).length, Text.one_lt_length_segments_iff.mpr hdot, ?_, ?_⟩
    · rw [Text.segments_append, List.length_append]
      omega
    · rw [Text.segments_append, List.take_left, Text.join_segments]

theorem IsStem.length_lt (h : IsStem s q) : s.length < q.length := by
  obtain ⟨⟨rest, rfl⟩, -⟩ := h
  rw [String.length_append, String.length_append]
  have hdot : ".".length = 1 := rfl
  omega

/-- The longest stem that has a template, if there is one. -/
theorem byBase?_eq_some_iff : r.byBase? q = some t ↔
    ∃ s, IsStem s q ∧ r.templates.get? s = some t ∧
      ∀ s', IsStem s' q → s' ∈ r.schemaIds → s'.length ≤ s.length := by
  have hpairwise := bases_pairwise q
  unfold byBase?
  constructor
  · intro h
    obtain ⟨longer, s, shorter, hbases, hget, hlonger⟩ := List.findSome?_eq_some_iff.mp h
    rw [hbases, List.pairwise_append, List.pairwise_cons] at hpairwise
    -- the bases tried before are not listed, and those behind are shorter
    refine ⟨s, mem_bases_iff_isStem.mp (by simp [hbases]), hget, fun s' hstem hlisted => ?_⟩
    have hmem := mem_bases_iff_isStem.mpr hstem
    rw [hbases] at hmem
    rcases List.mem_append.mp hmem with hmem | hmem
    · exact absurd hlisted (get?_eq_none_iff.mp (hlonger s' hmem))
    · rcases List.mem_cons.mp hmem with rfl | hmem
      · exact Nat.le_refl _
      · exact Nat.le_of_lt (mem_bases_iff_isStem.mp (hpairwise.2.1.1 s' hmem)).length_lt
  · rintro ⟨s, hstem, hget, hlongest⟩
    obtain ⟨longer, shorter, hbases⟩ := List.append_of_mem (mem_bases_iff_isStem.mpr hstem)
    rw [hbases, List.pairwise_append] at hpairwise
    refine List.findSome?_eq_some_iff.mpr ⟨longer, s, shorter, hbases, hget, fun s' hmem => ?_⟩
    rw [get?_eq_none_iff]
    intro hlisted
    have hle := hlongest s' (mem_bases_iff_isStem.mp (by simp [hbases, hmem])) hlisted
    have hbase := hpairwise.2.2 s' hmem s List.mem_cons_self
    exact absurd (mem_bases_iff_isStem.mp hbase).length_lt (Nat.not_lt.mpr hle)

/-! ## The best match -/

/-- The template that an id is looked up to find. -/
inductive BestMatch (r : Registry) (q : String) (t : Template) : Prop
  | byName (hown : r.templates.get? q = some t)
  | byAlias {name target : String} (hown : q ∉ r.schemaIds)
      (halias : r.aliases.get? q = some (name, target))
      (htarget : r.templates.get? target = some t)
  | byStem {s : String} (hown : q ∉ r.schemaIds) (halias : r.aliases.get? q = none)
      (hstem : IsStem s q) (hget : r.templates.get? s = some t)
      (hlongest : ∀ s', IsStem s' q → s' ∈ r.schemaIds → s'.length ≤ s.length)

theorem byName?_eq_some_iff : r.byName? q = some t ↔ r.templates.get? q = some t ∨
    q ∉ r.schemaIds ∧ ∃ name target, r.aliases.get? q = some (name, target) ∧
      r.templates.get? target = some t := by
  rw [← get?_eq_none_iff]
  unfold byName?
  cases r.templates.get? q with
  | some u => simp
  | none => simp [Option.bind_eq_some_iff]

/-- Every alias of the registry stands for a template, so nothing else is left without one. -/
theorem byName?_eq_none_iff (haliases : r.AliasesListed) :
    r.byName? q = none ↔ q ∉ r.schemaIds ∧ r.aliases.get? q = none := by
  rw [← get?_eq_none_iff]
  unfold byName?
  cases r.templates.get? q with
  | some u => simp
  | none =>
    cases halias : r.aliases.get? q with
    | none => simp
    | some a =>
      obtain ⟨u, hu⟩ := Option.isSome_iff_exists.mp (haliases a (Roster.mem_of_get? halias))
      simp [hu]

theorem bestMatch_iff (haliases : r.AliasesListed) :
    (r.byName? q).or (r.byBase? q) = some t ↔ r.BestMatch q t := by
  rw [Option.or_eq_some_iff, byName?_eq_some_iff, byName?_eq_none_iff haliases,
    byBase?_eq_some_iff]
  constructor
  · rintro ((hown | ⟨hown, name, target, halias, htarget⟩) |
      ⟨⟨hown, halias⟩, s, hstem, hget, hlongest⟩)
    · exact .byName hown
    · exact .byAlias hown halias htarget
    · exact .byStem hown halias hstem hget hlongest
  · intro h
    cases h with
    | byName hown => exact .inl (.inl hown)
    | byAlias hown halias htarget => exact .inl (.inr ⟨hown, _, _, halias, htarget⟩)
    | byStem hown halias hstem hget hlongest =>
      exact .inr ⟨⟨hown, halias⟩, _, hstem, hget, hlongest⟩

/-- The outcome of looking an id up by what it stands for. -/
def Finds (r : Registry) (id q : String) : Prop :=
  (∃ t, r.BestMatch q t ∧ (r.findTemplate id).outcome = .ok t) ∨
    (∀ t, ¬r.BestMatch q t) ∧ (r.findTemplate id).outcome = .error (.unknownSchema id)

theorem finds_unqualified (haliases : r.AliasesListed) (hfilled : Text.allBlank id = false) :
    r.Finds id (r.unqualified id) := by
  cases hfound : (r.byName? (r.unqualified id)).or (r.byBase? (r.unqualified id)) with
  | some t =>
    exact .inl ⟨t, (bestMatch_iff haliases).mp hfound, findTemplate_eq_ok_iff.mpr ⟨hfilled, hfound⟩⟩
  | none =>
    refine .inr ⟨fun t hmatch => ?_, findTemplate_eq_error_iff.mpr (.inr ⟨hfilled, hfound, rfl⟩)⟩
    rw [(bestMatch_iff haliases).mpr hmatch] at hfound
    cases hfound

/-! ## What an id stands for -/

/-- A loaded level has the name, in any case. -/
def NamesLevel (r : Registry) (level : String) : Prop :=
  ∃ h ∈ r.headers, Text.sameLetters h.name level = true

theorem namesLevel_iff :
    r.NamesLevel level ↔ ∃ name ∈ r.levelNames, Text.sameLetters name level = true := by
  simp [NamesLevel, levelNames]

/-- An id behind the version and a level. -/
def qualify (r : Registry) (level id : String) : String :=
  versionFolder r.version ++ "." ++ level ++ "." ++ id

theorem toList_qualify (r : Registry) (level id : String) : (r.qualify level id).toList =
    (versionFolder r.version ++ ".").toList ++ (level.toList ++ '.' :: id.toList) := by
  simp [qualify]

/-- An id stands for what follows the version and the name of a level. The name ends at the first
dot, so no level that has one in its name is recognized. Any other id stands for itself. -/
inductive StandsFor (r : Registry) : String → String → Prop
  | qualified {level q : String} (hlevel : r.NamesLevel level) (hdot : '.' ∉ level.toList) :
      StandsFor r (r.qualify level q) q
  | plain {id : String} (hplain : ∀ level q, r.NamesLevel level → '.' ∉ level.toList →
      id ≠ r.qualify level q) : StandsFor r id id

theorem NamesLevel.headerNamed? (h : r.NamesLevel level) :
    (r.headerNamed? level).isSome = true := by
  obtain ⟨header, hmem, hletters⟩ := h
  exact List.find?_isSome.mpr ⟨header, hmem, hletters⟩

theorem unqualified_qualify (hlevel : r.NamesLevel level) (hdot : '.' ∉ level.toList)
    (q : String) : r.unqualified (r.qualify level q) = q := by
  unfold unqualified
  rw [toList_qualify, Text.dropStem_append]
  simp only [Option.bind_some, Text.splitFirst_append hdot, String.ofList_toList,
    hlevel.headerNamed?, if_true]

theorem unqualified_eq_self_of_plain (hplain : ∀ level q, r.NamesLevel level →
    '.' ∉ level.toList → id ≠ r.qualify level q) : r.unqualified id = id := by
  rcases r.unqualified_cases id with hself | ⟨h, hmem, level, hletters, hdot, he⟩
  · exact hself
  · exact absurd he (hplain level _ ⟨h, hmem, hletters⟩ hdot)

theorem standsFor_iff : r.StandsFor id q ↔ r.unqualified id = q := by
  constructor
  · intro h
    cases h with
    | qualified hlevel hdot => exact unqualified_qualify hlevel hdot q
    | plain hplain => exact unqualified_eq_self_of_plain hplain
  · rintro rfl
    by_cases hqualified :
        ∃ level q, r.NamesLevel level ∧ '.' ∉ level.toList ∧ id = r.qualify level q
    · obtain ⟨level, q, hlevel, hdot, rfl⟩ := hqualified
      rw [unqualified_qualify hlevel hdot]
      exact .qualified hlevel hdot
    · have hplain : ∀ level q, r.NamesLevel level → '.' ∉ level.toList → id ≠ r.qualify level q :=
        fun level q hlevel hdot he => hqualified ⟨level, q, hlevel, hdot, he⟩
      rw [unqualified_eq_self_of_plain hplain]
      exact .plain hplain

theorem StandsFor.finds (h : r.StandsFor id q) (haliases : r.AliasesListed)
    (hfilled : Text.allBlank id = false) : r.Finds id q := by
  rw [← standsFor_iff.mp h]
  exact finds_unqualified haliases hfilled

/-! ## Levels without dots -/

theorem isQualified_iff :
    r.IsQualified id ↔ ∃ level q, r.NamesLevel level ∧ id = r.qualify level q := by
  constructor
  · rintro ⟨h, hmem, level, q, hletters, he⟩
    exact ⟨level, q, ⟨h, hmem, hletters⟩, he⟩
  · rintro ⟨level, q, ⟨h, hmem, hletters⟩, he⟩
    exact ⟨h, hmem, level, q, hletters, he⟩

/-- The id without the version and a level in front, if it has them. -/
def Strips (r : Registry) (id q : String) : Prop :=
  (∃ level, r.NamesLevel level ∧ id = r.qualify level q) ∨ ¬r.IsQualified id ∧ q = id

theorem standsFor_iff_strips (hdots : ∀ h ∈ r.headers, '.' ∉ h.name.toList) :
    r.StandsFor id q ↔ r.Strips id q := by
  have hdot {level : String} (hlevel : r.NamesLevel level) : '.' ∉ level.toList := by
    obtain ⟨h, hmem, hletters⟩ := hlevel
    rw [← Text.dot_mem_iff_of_sameLetters hletters]
    exact hdots h hmem
  constructor
  · intro h
    cases h with
    | qualified hlevel _ => exact .inl ⟨_, hlevel, rfl⟩
    | plain hplain =>
      refine .inr ⟨fun hqualified => ?_, rfl⟩
      obtain ⟨level, q, hlevel, he⟩ := isQualified_iff.mp hqualified
      exact hplain level q hlevel (hdot hlevel) he
  · rintro (⟨level, hlevel, rfl⟩ | ⟨hplain, rfl⟩)
    · exact .qualified hlevel (hdot hlevel)
    · exact .plain fun level q hlevel _ he => hplain (isQualified_iff.mpr ⟨level, q, hlevel, he⟩)

/-- A look-up fails on a blank id, and else finds the best match of what the id stands for, or says
that the id as it was given is unknown. Without dots in the names of levels, an id stands for what
is left when the version and a level in front are stripped. -/
theorem findTemplate_bestMatch (h : Reached r) (id : String) :
    ((r.findTemplate id).outcome = .error .blankSchemaId ↔ Text.allBlank id = true) ∧
    (Text.allBlank id = false → (∃ q, r.StandsFor id q) ∧
      ∀ q, r.StandsFor id q → r.Finds id q) ∧
    ((∀ header ∈ r.headers, '.' ∉ header.name.toList) →
      ∀ q, r.StandsFor id q ↔ r.Strips id q) := by
  refine ⟨?_, fun hfilled => ⟨⟨r.unqualified id, standsFor_iff.mpr rfl⟩, ?_⟩,
    fun hdots q => standsFor_iff_strips hdots⟩
  · rw [findTemplate_eq_error_iff]
    simp
  · exact fun q hq => hq.finds h.aliasesListed hfilled

/-- A source whose level has a dot in its name, with a header and the schema MSG.HB. -/
def dottedSource : Source := .inline
  ("[[levels]]\nlevel=0\nname=\"A.B\"\n" ++
    "[[schemas]]\nid=\"HEADER\"\nlevel=0\n[[schemas]]\nid=\"MSG.HB\"\nlevel=0\n")
  [("header", "id=\"HEADER\"\nlevel=\"A.B\"\n"), ("heartbeat", "id=\"MSG.HB\"\nlevel=\"A.B\"\n")]

theorem load_dottedSource : ∃ r, (load dottedSource 201900 .base).outcome = .ok r ∧
    decide (r.version = 201900 ∧ r.levelNames = ["A.B"] ∧ r.schemaIds = ["MSG.HB"] ∧
      r.unqualified "MSG.HB.SAT" = "MSG.HB.SAT" ∧
      (r.findTemplate "MSG.HB").outcome.isOk = true ∧
      (r.findTemplate "2019.00.A.B.MSG.HB").outcome.isOk = false ∧
      (r.findTemplate "2019.00.a.b.MSG.HB").outcome.isOk = false) = true :=
  exists_load (by decide +kernel)

/-- An id of three segments finds the template of its first two. -/
theorem findTemplate_bestMatch_stem : ∃ r, Reached r ∧ r.schemaIds = ["MSG.HB"] ∧
    r.Finds "MSG.HB.SAT" "MSG.HB.SAT" := by
  obtain ⟨r, hload, hfacts⟩ := load_dottedSource
  obtain ⟨-, -, hids, hbare, -⟩ := of_decide_eq_true hfacts
  have hreached : Reached r := .loaded hload
  refine ⟨r, hreached, hids, ?_⟩
  exact ((findTemplate_bestMatch hreached "MSG.HB.SAT").2.1 (by decide)).2 _
    (standsFor_iff.mpr hbare)

/-- Behind the version and a level with a dot in its name, not even a listed id is found. -/
theorem exists_stripped_unfound : ∃ r, Reached r ∧
    r.Strips "2019.00.A.B.MSG.HB" "MSG.HB" ∧ "MSG.HB" ∈ r.schemaIds ∧
    ∀ t, (r.findTemplate "2019.00.A.B.MSG.HB").outcome ≠ .ok t := by
  obtain ⟨r, hload, hfacts⟩ := load_dottedSource
  obtain ⟨hversion, hlevels, hids, -, -, hunfound, -⟩ := of_decide_eq_true hfacts
  refine ⟨r, .loaded hload, .inl ⟨"A.B", ?_, ?_⟩, by rw [hids]; decide, fun t ht => ?_⟩
  · exact namesLevel_iff.mpr ⟨"A.B", by rw [hlevels]; decide, Text.sameLetters_refl _⟩
  · rw [qualify, hversion]
    decide +kernel
  · rw [ht] at hunfound
    cases hunfound

end BusCompliance.Registry
