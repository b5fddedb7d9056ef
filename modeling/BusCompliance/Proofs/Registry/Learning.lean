import BusCompliance.Proofs.Registry.Load
import BusCompliance.Proofs.Registry.Validation

/-!
# What learning keeps

An id is learned only if no look-up finds it: not by its name, not as an alias, not by a base. So a
template that is put in for it stands in the way of no other look-up, as long as every alias stands
for a template that is there. Loading sees to that.
-/

namespace BusCompliance.Registry

variable {r r' r'' : Registry} {m : Message} {id : String} {t u : Template}

/-! ## One more template -/

/-- Every alias stands for a template that is there. -/
def AliasesListed (r : Registry) : Prop :=
  ∀ a ∈ r.aliases.toList, r.templates.contains a.2 = true

theorem AliasesListed.withLearning (h : r.AliasesListed) (learns : Bool) :
    (r.withLearning learns).AliasesListed := h

theorem get?_withTemplate (r : Registry) (t : Template) (id : String) :
    (r.withTemplate t).templates.get? id = if t.id = id then some t else r.templates.get? id :=
  Roster.get?_insert r.templates t id

theorem ne_of_get? (hnew : r.templates.get? t.id = none) (h : r.templates.get? id = some u) :
    t.id ≠ id := by
  rintro rfl
  rw [hnew] at h
  cases h

theorem AliasesListed.withTemplate (h : r.AliasesListed) (t : Template) :
    (r.withTemplate t).AliasesListed := by
  intro a ha
  have hlisted := h a ha
  unfold Roster.contains at hlisted ⊢
  rw [get?_withTemplate]
  split
  · rfl
  · exact hlisted

theorem aliases_withTemplate (r : Registry) (t : Template) :
    (r.withTemplate t).aliases = r.aliases := rfl

theorem get?_eq_none_of_byName? (h : r.byName? id = none) : r.templates.get? id = none := by
  unfold byName? at h
  split at h
  · cases h
  · assumption

theorem byName?_withTemplate (haliases : r.AliasesListed) (hnew : r.templates.get? t.id = none)
    (hid : t.id ≠ id) : (r.withTemplate t).byName? id = r.byName? id := by
  unfold byName?
  rw [get?_withTemplate, if_neg hid, aliases_withTemplate]
  cases r.templates.get? id with
  | some u => rfl
  | none =>
    cases halias : r.aliases.get? id with
    | none => rfl
    | some a =>
      obtain ⟨name, target⟩ := a
      obtain ⟨u, hu⟩ := Option.isSome_iff_exists.mp (haliases _ (Roster.mem_of_get? halias))
      exact (get?_withTemplate r t target).trans (if_neg (ne_of_get? hnew hu))

/-- The bases of an id that come before the one that finds a template have that one as a base too,
so none of them is learned. -/
theorem byBase?_withTemplate (hnew : r.templates.get? t.id = none) (hnone : r.byBase? t.id = none)
    (h : r.byBase? id = some u) : (r.withTemplate t).byBase? id = some u := by
  obtain ⟨longer, base, shorter, hbases, hget, hlonger⟩ := List.findSome?_eq_some_iff.mp h
  refine List.findSome?_eq_some_iff.mpr ⟨longer, base, shorter, hbases, ?_, ?_⟩
  · rw [get?_withTemplate, if_neg (ne_of_get? hnew hget), hget]
  · intro b hb
    have hordered := bases_pairwise id
    rw [hbases, List.pairwise_append] at hordered
    have hbase : base ∈ bases b := hordered.2.2 b hb base List.mem_cons_self
    have hne : t.id ≠ b := by
      rintro rfl
      rw [List.findSome?_eq_none_iff.mp hnone base hbase] at hget
      cases hget
    rw [get?_withTemplate, if_neg hne, hlonger b hb]

theorem findTemplate_withTemplate (haliases : r.AliasesListed) (hname : r.byName? t.id = none)
    (hbase : r.byBase? t.id = none) (h : (r.findTemplate id).outcome = .ok u) :
    ((r.withTemplate t).findTemplate id).outcome = .ok u := by
  have hnew : r.templates.get? t.id = none := get?_eq_none_of_byName? hname
  obtain ⟨hfilled, hfound⟩ := findTemplate_eq_ok_iff.mp h
  refine findTemplate_eq_ok_iff.mpr ⟨hfilled, ?_⟩
  change ((r.withTemplate t).byName? (r.unqualified id)).or
    ((r.withTemplate t).byBase? (r.unqualified id)) = some u
  generalize r.unqualified id = bare at hfound ⊢
  have hne : t.id ≠ bare := by
    rintro rfl
    rw [hname, hbase] at hfound
    cases hfound
  rw [byName?_withTemplate haliases hnew hne]
  rcases Option.or_eq_some_iff.mp hfound with hfound | ⟨hunnamed, hfound⟩
  · exact Option.or_eq_some_iff.mpr (.inl hfound)
  · exact Option.or_eq_some_iff.mpr (.inr ⟨hunnamed, byBase?_withTemplate hnew hbase hfound⟩)

theorem findTemplate_withTemplate_self (t : Template) (hfilled : Text.allBlank t.id = false)
    (hbare : r.unqualified t.id = t.id) :
    ((r.withTemplate t).findTemplate t.id).outcome = .ok t := by
  refine findTemplate_eq_ok_iff.mpr ⟨hfilled, ?_⟩
  change ((r.withTemplate t).byName? (r.unqualified t.id)).or _ = some t
  unfold byName?
  rw [hbare, get?_withTemplate, if_pos rfl]
  rfl

/-! ## Later registries -/

/-- A later registry has more templates, and finds all that the earlier one finds. -/
structure Extends (r r' : Registry) : Prop where
  others : ∃ templates, r' = { r with templates }
  listed : ∀ {id t}, r.templates.get? id = some t → r'.templates.get? id = some t
  found : ∀ {id t}, (r.findTemplate id).outcome = .ok t → (r'.findTemplate id).outcome = .ok t
  strict : r.learns = false → r' = r

theorem Extends.refl (r : Registry) : Extends r r := ⟨⟨_, rfl⟩, id, id, fun _ => rfl⟩

theorem Extends.trans (h : Extends r r') (h' : Extends r' r'') : Extends r r'' := by
  obtain ⟨ts, rfl⟩ := h.others
  obtain ⟨ts', rfl⟩ := h'.others
  refine ⟨⟨ts', rfl⟩, ?_, ?_, ?_⟩
  · exact fun hget => h'.listed (h.listed hget)
  · exact fun hfound => h'.found (h.found hfound)
  · intro hstrict
    rw [h'.strict hstrict, h.strict hstrict]

theorem Extends.schemaIdOf_eq (h : Extends r r') (m : Message) :
    r'.schemaIdOf m = r.schemaIdOf m := by
  obtain ⟨ts, rfl⟩ := h.others
  rfl

theorem Extends.isQualified_iff (h : Extends r r') : r'.IsQualified id ↔ r.IsQualified id := by
  obtain ⟨ts, rfl⟩ := h.others
  rfl

/-- The id of a message is not a qualified one. -/
def IsPlain (r : Registry) (m : Message) : Prop :=
  ∀ id, r.schemaIdOf m = some id → ¬r.IsQualified id

theorem IsPlain.unqualified_eq (hplain : r.IsPlain m) (hid : r.schemaIdOf m = some id) :
    r.unqualified id = id :=
  unqualified_eq_self (hplain id hid)

theorem Extends.isPlain (h : Extends r r') (hplain : r.IsPlain m) : r'.IsPlain m := by
  intro id hid hqualified
  exact hplain id (h.schemaIdOf_eq m ▸ hid) (h.isQualified_iff.mp hqualified)

/-! ## One validation -/

theorem unfound_of_unknown (herror : (r.findTemplate id).outcome = .error (.unknownSchema id)) :
    Text.allBlank id = false ∧ r.byName? (r.unqualified id) = none ∧
      r.byBase? (r.unqualified id) = none := by
  rcases findTemplate_eq_error_iff.mp herror with ⟨-, h⟩ | ⟨hfilled, hnone, -⟩
  · cases h
  · exact ⟨hfilled, Option.or_eq_none_iff.mp hnone⟩

theorem IsPlain.unfound (hplain : r.IsPlain m) (hid : r.schemaIdOf m = some id)
    (herror : (r.findTemplate id).outcome = .error (.unknownSchema id)) :
    Text.allBlank id = false ∧ r.byName? id = none ∧ r.byBase? id = none := by
  have hunfound := unfound_of_unknown herror
  rwa [hplain.unqualified_eq hid] at hunfound

theorem extends_withTemplate (haliases : r.AliasesListed) (hlearns : r.learns = true)
    (hname : r.byName? t.id = none) (hbase : r.byBase? t.id = none) :
    Extends r (r.withTemplate t) := by
  refine ⟨⟨_, rfl⟩, ?_, findTemplate_withTemplate haliases hname hbase, ?_⟩
  · intro id u hget
    rw [get?_withTemplate, if_neg (ne_of_get? (get?_eq_none_of_byName? hname) hget), hget]
  · intro hstrict
    rw [hlearns] at hstrict
    cases hstrict

variable {s : Status}

theorem Validates.adds (h : Validates r m s r') : r' = r ∨ ∃ t, r.schemaIdOf m = some t.id ∧
    r.templates.get? t.id = none ∧ r' = r.withTemplate t := by
  cases h with
  | noSchema => exact .inl rfl
  | found => exact .inl rfl
  | refused => exact .inl rfl
  | known => exact .inl rfl
  | learned hid herror hlearns hnew => exact .inr ⟨_, hid, hnew, rfl⟩

theorem Validates.aliasesListed (h : Validates r m s r') (haliases : r.AliasesListed) :
    r'.AliasesListed := by
  rcases h.adds with rfl | ⟨t, -, -, rfl⟩
  · exact haliases
  · exact haliases.withTemplate t

theorem Validates.extends (h : Validates r m s r') (haliases : r.AliasesListed)
    (hplain : r.IsPlain m) : Extends r r' := by
  cases h with
  | noSchema => exact .refl r
  | found => exact .refl r
  | refused => exact .refl r
  | known => exact .refl r
  | learned hid herror hlearns hnew =>
    obtain ⟨-, hname, hbase⟩ := hplain.unfound hid herror
    exact extends_withTemplate haliases hlearns hname hbase

/-- In the registry that a validation leaves, and in all later ones, the message is judged as
before, and teaches nothing more. -/
theorem Validates.again (h : Validates r m s r') (hplain : r.IsPlain m) (hlater : Extends r' r'') :
    Validates r'' m s r'' := by
  have hid' := hlater.schemaIdOf_eq m
  cases h with
  | noSchema hid => exact .noSchema (hid'.trans hid)
  | found hid hfound => exact .found (hid'.trans hid) (hlater.found hfound)
  | refused hid herror hstrict =>
    rcases findTemplate_eq_error_iff.mp herror with ⟨hblank, rfl⟩ | ⟨-, -, rfl⟩
    · refine .refused (hid'.trans hid) ?_ ?_
      · rw [outcome_findTemplate, if_pos hblank]
      · intro hkind
        cases hkind
    · rw [hlater.strict (hstrict rfl)]
      exact .refused hid herror hstrict
  | known hid herror hlearns hlisted =>
    obtain ⟨-, hname, -⟩ := hplain.unfound hid herror
    rw [get?_eq_none_of_byName? hname] at hlisted
    cases hlisted
  | learned hid herror hlearns hnew =>
    obtain ⟨hfilled, -, -⟩ := hplain.unfound hid herror
    refine .found (hid'.trans hid) (hlater.found ?_)
    exact findTemplate_withTemplate_self (r.learnedTemplate _ m) hfilled (hplain.unqualified_eq hid)

/-! ## Runs -/

theorem aliasesListed_validateAll (haliases : r.AliasesListed) (ms : List Message) :
    (r.validateAll ms).AliasesListed := by
  induction ms generalizing r with
  | nil => exact haliases
  | cons m ms ih => exact ih ((validates_validate r m).aliasesListed haliases)

theorem extends_validateAll {ms : List Message} (haliases : r.AliasesListed)
    (hplain : ∀ m ∈ ms, r.IsPlain m) : Extends r (r.validateAll ms) := by
  induction ms generalizing r with
  | nil => exact .refl r
  | cons m ms ih =>
    have hcourse := validates_validate r m
    have hstep := hcourse.extends haliases (hplain m List.mem_cons_self)
    refine hstep.trans (ih (hcourse.aliasesListed haliases) ?_)
    intro m' hm'
    exact hstep.isPlain (hplain m' (List.mem_cons_of_mem m hm'))

/-- A directory's alias counts only where its schema has a template. -/
theorem aliasesListed_load {source : Source} {version : Nat} {level : SchemaLevel}
    (h : (load source version level).outcome = .ok r) : r.AliasesListed := by
  obtain ⟨directory, _, _, _, -, -, -, -, -, hassemble⟩ := load_eq_ok_iff.mp h
  obtain ⟨-, headers, templates, -, -, rfl⟩ := assemble_eq_ok_iff.mp hassemble
  intro a ha
  obtain ⟨e, he, hshort⟩ := List.mem_filterMap.mp (Roster.mem_of_mem_ofList ha)
  obtain ⟨name, -, rfl⟩ := Option.map_eq_some_iff.mp hshort
  rw [List.mem_mergeSort] at he
  exact (List.mem_filter.mp he).2

/-- A validation puts in at most the template of the message's own id, changes none that is there
and loses no look-up; and whatever is validated after it, the message is judged the same again. -/
theorem validateAll_settled {source : Source} {version : Nat} {level : SchemaLevel}
    (hload : (load source version level).outcome = .ok r) (learns : Bool)
    {before after : List Message} {m : Message}
    (hplain : ∀ m' ∈ before ++ m :: after, (r.withLearning learns).IsPlain m') :
    let r₁ := (r.withLearning learns).validateAll before
    let r₂ := (r₁.validate m).value.2
    (r₂ = r₁ ∨ ∃ t, r₁.schemaIdOf m = some t.id ∧ r₁.templates.get? t.id = none ∧
      r₂ = r₁.withTemplate t) ∧
    (∀ id t, r₁.templates.get? id = some t → r₂.templates.get? id = some t) ∧
    (∀ id t, (r₁.findTemplate id).outcome = .ok t → (r₂.findTemplate id).outcome = .ok t) ∧
    ∀ later, later <+: after →
      ((r₂.validateAll later).validate m).value.1 = (r₁.validate m).value.1 := by
  intro r₁ r₂
  have haliases : (r.withLearning learns).AliasesListed :=
    (aliasesListed_load hload).withLearning learns
  obtain ⟨hbefore, hm, hafter⟩ : (∀ m' ∈ before, (r.withLearning learns).IsPlain m') ∧
      (r.withLearning learns).IsPlain m ∧ ∀ m' ∈ after, (r.withLearning learns).IsPlain m' := by
    simpa only [List.forall_mem_append, List.forall_mem_cons] using hplain
  have hfirst : Extends (r.withLearning learns) r₁ := extends_validateAll haliases hbefore
  have haliases₁ : r₁.AliasesListed := aliasesListed_validateAll haliases before
  have hcourse : Validates r₁ m (r₁.validate m).value.1 r₂ := validates_validate r₁ m
  have hstep : Extends r₁ r₂ := hcourse.extends haliases₁ (hfirst.isPlain hm)
  refine ⟨hcourse.adds, fun _ _ => hstep.listed, fun _ _ => hstep.found, ?_⟩
  intro later hlater
  have hrest : Extends r₂ (r₂.validateAll later) := by
    refine extends_validateAll (hcourse.aliasesListed haliases₁) ?_
    intro m' hm'
    exact (hfirst.trans hstep).isPlain (hafter m' (hlater.subset hm'))
  rw [(hcourse.again (hfirst.isPlain hm) hrest).value_eq]

/-- A source whose directory takes the id from the field T, and lists no schema but the header. -/
def headerSource : Source := .inline
  ("[[levels]]\nlevel=0\nname=\"L\"\n" ++
    "[[schemas]]\nid=\"HEADER\"\nlevel=0\ndefinition=[\"T\"]\n")
  [("header", "id=\"HEADER\"\nlevel=\"L\"\n")]

/-- A message of the schema of that id. -/
def messageOf (id : String) : Message := (Message.new .publish).add ⟨"T", .string id, by decide⟩

/-- A message of the schema B, with a field that others of it do not have. -/
def novelLonger : Message := (messageOf "B").add ⟨"X", .string "", by decide⟩

theorem load_headerSource : ∃ r, (load headerSource 201900 .base).outcome = .ok r ∧
    decide (r.version = 201900 ∧ r.schemaIdOf (messageOf "B") = some "B" ∧
      r.schemaIdOf novelLonger = some "B" ∧
      ((r.withLearning true).validate (messageOf "B")).value.2.schemaIds = ["B"]) = true :=
  exists_load (by decide +kernel)

/-- What is learned from the first message settles it, whatever comes between. -/
theorem validateAll_settled_novel : ∃ r, (load headerSource 201900 .base).outcome = .ok r ∧
    let m := messageOf "B"
    let r₁ := (r.withLearning true).validateAll []
    let r₂ := (r₁.validate m).value.2
    r₂.schemaIds = ["B"] ∧
    (r₂ = r₁ ∨ ∃ t, r₁.schemaIdOf m = some t.id ∧ r₁.templates.get? t.id = none ∧
      r₂ = r₁.withTemplate t) ∧
    (∀ id t, r₁.templates.get? id = some t → r₂.templates.get? id = some t) ∧
    (∀ id t, (r₁.findTemplate id).outcome = .ok t → (r₂.findTemplate id).outcome = .ok t) ∧
    ∀ later, later <+: [novelLonger] →
      ((r₂.validateAll later).validate m).value.1 = (r₁.validate m).value.1 := by
  obtain ⟨r, hload, hfacts⟩ := load_headerSource
  obtain ⟨hversion, hid, hid', hlearned⟩ := of_decide_eq_true hfacts
  refine ⟨r, hload, hlearned, validateAll_settled hload true ?_⟩
  have hplain : ¬(r.withLearning true).IsQualified "B" := by
    rintro ⟨h, -, level, rest, -, he⟩
    have hfolder : (versionFolder (r.withLearning true).version).toList = "2019.00".toList := by
      change (versionFolder r.version).toList = _
      rw [hversion]
      decide +kernel
    have hhead := congrArg (fun s => s.toList.head?) he
    simp [hfolder] at hhead
  intro m hm
  have hm' : (r.withLearning true).schemaIdOf m = some "B" := by
    rcases List.mem_cons.mp hm with rfl | hm
    · exact hid
    · rw [List.mem_singleton.mp hm]
      exact hid'
  intro id hsome
  rwa [← Option.some.inj (hm'.symm.trans hsome)]

end BusCompliance.Registry
