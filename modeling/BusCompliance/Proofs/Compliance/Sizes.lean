import BusCompliance.Proofs.Compliance.FirstViolation
import BusCompliance.Proofs.Compliance.Members

/-!
# Size fields

The check asks for the size of each group that it comes to. A group rejects the first field under
its stem that none of its members declares. Asking for a size declares nothing, so the size field of
a group in a group is rejected like any other field, unless a specification beside the inner group
declares it: a message with that field fails, and so does one without it.
-/

namespace BusCompliance

/-- A group in the place where the check meets it: beside others, under a stem. -/
structure Site where
  siblings : List FieldSpec
  stem : String
  group : FieldSpec

namespace Site

/-- The field that holds the number of members. -/
def sizeField (a : Site) : String := a.stem ++ a.group.sizeName

/-- What the names of all fields of the group begin with. -/
def groupStem (a : Site) : String := BusCompliance.groupStem a.stem a.group.elementName

/-- What the names of the fields of a member begin with. -/
def memberStem (a : Site) (i : Nat) : String :=
  BusCompliance.memberStem a.stem a.group.elementName i

def HasSize (m : Message) (a : Site) (size : Nat) : Prop :=
  BusCompliance.HasSize m a.siblings a.stem a.group size

/-- A member of the group declares the field. -/
def Declares (m : Message) (a : Site) (name : String) : Prop :=
  BusCompliance.Declares m a.siblings a.stem a.group name

def Satisfied (m : Message) (a : Site) : Prop :=
  BusCompliance.Satisfied m a.siblings a.stem a.group

/-- The members up to the size pass. -/
def MembersPass (m : Message) (a : Site) (size : Nat) : Prop :=
  ∀ i, 1 ≤ i → i ≤ size → ∀ child ∈ a.group.children,
    BusCompliance.Satisfied m a.group.children (a.memberStem i) child

/-- All members pass, and of the fields under the stem that no member declares, this is the
first. -/
structure Rejects (m : Message) (a : Site) (name : String) : Prop where
  group : a.group.isGroup = true
  members : ∃ size, a.HasSize m size ∧ a.MembersPass m size
  present : name ∈ m.fields.names
  under : Text.startsWith name a.groupStem = true
  undeclared : ¬a.Declares m name
  first : ∀ other ∈ m.fields.names, Text.startsWith other a.groupStem = true →
    ¬a.Declares m other → name ≤ other

end Site

/-- The groups whose sizes a check of specifications asks for, up to the first violation. It comes to
what stands behind a specification, or behind a member, only if these are satisfied. -/
inductive Consults (m : Message) :
    List FieldSpec → String → List FieldSpec → Site → Prop
  | here {siblings : List FieldSpec} {stem : String} {s : FieldSpec} {rest : List FieldSpec}
      (hgroup : s.isGroup = true) : Consults m siblings stem (s :: rest) ⟨siblings, stem, s⟩
  | inside {siblings : List FieldSpec} {stem : String} {s : FieldSpec} {rest : List FieldSpec}
      {size i : Nat} {a : Site} (hgroup : s.isGroup = true) (hsize : HasSize m siblings stem s size)
      (hfirst : 1 ≤ i) (hlast : i ≤ size)
      (hpassed : ∀ j, 1 ≤ j → j < i → ∀ child ∈ s.children,
        Satisfied m s.children (memberStem stem s.elementName j) child)
      (h : Consults m s.children (memberStem stem s.elementName i) s.children a) :
      Consults m siblings stem (s :: rest) a
  | behind {siblings : List FieldSpec} {stem : String} {s : FieldSpec} {rest : List FieldSpec}
      {a : Site} (hs : Satisfied m siblings stem s) (h : Consults m siblings stem rest a) :
      Consults m siblings stem (s :: rest) a

/-- The check of a member of the one group asks for the size of the other. -/
def Site.Encloses (m : Message) (a b : Site) : Prop :=
  ∃ size i, a.HasSize m size ∧ 1 ≤ i ∧ i ≤ size ∧
    Consults m a.group.children (a.memberStem i) a.group.children b

variable {m : Message} {siblings specs : List FieldSpec} {stem name : String} {s : FieldSpec}
  {a b : Site} {size : Nat} {covered : List String} {v : Violation}

/-! ## Rejected fields -/

/-- What the members cover is what they declare, so a field that they do not cover is rejected. -/
theorem rejects_iff_strayField? (hgroup : a.group.isGroup = true) (hsize : a.HasSize m size)
    {members : List String}
    (hok : coverFrom (fun i => coverIn m a.group.children (a.memberStem i) a.group.children)
      size 1 [] = .ok members) :
    a.Rejects m name ↔ strayField? m a.groupStem members = some name := by
  have hmember (i : Nat) :=
    covers_coverIn a.group.children a.group.children (a.memberStem i) (m := m)
  have hrun := covers_coverFrom hmember size 1
  have hcovered (other : String) : other ∈ members ↔ a.Declares m other := by
    have hdeclares : a.Declares m other ↔ _ :=
      declares_group_iff hgroup (groupSize_eq_ok_iff.mpr hsize)
    rw [hrun.covered_iff hok other, hdeclares]
    exact or_iff_left List.not_mem_nil
  constructor
  · intro h
    cases hstray : strayField? m a.groupStem members with
    | none =>
      have hmem := strayField?_eq_none_iff.mp hstray name h.present h.under
      exact absurd ((hcovered name).mp hmem) h.undeclared
    | some other =>
      obtain ⟨⟨hpresent, hunder, hout⟩, hfirst⟩ := strayField?_eq_some hstray
      have hle := h.first other hpresent hunder fun hdeclared => hout ((hcovered other).mpr hdeclared)
      have hge := hfirst name h.present h.under fun hmem => h.undeclared ((hcovered name).mp hmem)
      rw [String.le_antisymm hle hge]
  · intro hstray
    obtain ⟨⟨hpresent, hunder, hout⟩, hfirst⟩ := strayField?_eq_some hstray
    refine ⟨hgroup, ⟨size, hsize, ?_⟩, hpresent, hunder, fun h => hout ((hcovered name).mpr h), ?_⟩
    · intro i hi hlast
      exact hrun.sound hok i hi (by omega)
    · intro other hother hstem hundeclared
      exact hfirst other hother hstem fun hmem => hundeclared ((hcovered other).mp hmem)

theorem groupSize_ne_stray (name : String) :
    s.groupSize m siblings stem ≠ .error (.stray name) := by
  unfold FieldSpec.groupSize
  simp only
  split
  · split <;> nofun
  · split <;> nofun

theorem check_ne_stray {field : String} (name : String) :
    s.check m field ≠ some (.stray name) := by
  unfold FieldSpec.check
  repeat' split
  all_goals nofun

theorem cover_of_rejects (h : a.Rejects m name) (covered : List String) :
    a.group.cover m a.siblings a.stem covered = .error (.stray name) := by
  obtain ⟨size, hsize, hmembers⟩ := h.members
  have hmember (i : Nat) :=
    covers_coverIn a.group.children a.group.children (a.memberStem i) (m := m)
  obtain ⟨members, hok⟩ := (covers_coverFrom hmember size 1).complete
    (fun i hi hlast => hmembers i hi (by omega)) []
  have hstray := (rejects_iff_strayField? h.group hsize hok).mp h
  unfold Site.memberStem at hok
  unfold Site.groupStem at hstray
  rw [cover_group h.group, groupSize_eq_ok_iff.mpr hsize]
  simp only [Except.bind, hok, hstray]

/-- A run of checks fails at a number if all before it pass. -/
theorem coverFrom_of_error {check : Nat → List String → Except Violation (List String)} {n i k : Nat}
    (hle : i ≤ k) (hlt : k < i + n)
    (hpassed : ∀ j, i ≤ j → j < k → ∀ covered, ∃ names, check j covered = .ok names)
    (herror : ∀ covered, check k covered = .error v) (covered : List String) :
    coverFrom check n i covered = .error v := by
  induction n generalizing i covered with
  | zero => omega
  | succ n ih =>
    unfold coverFrom
    rcases Nat.eq_or_lt_of_le hle with rfl | hlater
    · rw [herror]
    · obtain ⟨names, hok⟩ := hpassed i (Nat.le_refl i) hlater covered
      rw [hok]
      exact ih hlater (by omega) (fun j hj hjk => hpassed j (by omega) hjk) names

theorem coverIn_cons (covered : List String) : coverIn m siblings stem (s :: specs) covered =
    (s.cover m siblings stem covered).bind (coverIn m siblings stem specs) :=
  rfl

/-- The check comes to a group that it asks for its size, so what the group rejects ends it. -/
theorem Consults.coverIn_eq (h : Consults m siblings stem specs a) (hrejects : a.Rejects m name)
    (covered : List String) : coverIn m siblings stem specs covered = .error (.stray name) := by
  induction h generalizing covered with
  | here =>
    rw [coverIn_cons, cover_of_rejects hrejects]
    rfl
  | @inside siblings stem s rest size i a hgroup hsize hfirst hlast hpassed _ ih =>
    have hrun : coverFrom (fun i => coverIn m s.children (memberStem stem s.elementName i)
        s.children) size 1 [] = .error (.stray name) := by
      refine coverFrom_of_error hfirst (by omega) ?_ (ih hrejects) []
      intro j hj hji covered
      exact (covers_coverIn s.children s.children _).complete (hpassed j hj hji) covered
    rw [coverIn_cons, cover_group hgroup, groupSize_eq_ok_iff.mpr hsize]
    simp only [Except.bind, hrun]
  | behind hs _ ih =>
    obtain ⟨names, hok⟩ := (covers_cover _ _ _).complete hs covered
    rw [coverIn_cons, hok]
    exact ih hrejects names

theorem Consults.cons (h : Consults m siblings stem [s] a) (specs : List FieldSpec) :
    Consults m siblings stem (s :: specs) a := by
  cases h with
  | here hgroup => exact .here hgroup
  | inside hgroup hsize hfirst hlast hpassed h =>
    exact .inside hgroup hsize hfirst hlast hpassed h
  | behind _ h => cases h

theorem exists_rejects_of_cover_group (hgroup : s.isGroup = true)
    (hmember : ∀ i covered,
      coverIn m s.children (memberStem stem s.elementName i) s.children covered =
        .error (.stray name) →
      ∃ a, Consults m s.children (memberStem stem s.elementName i) s.children a ∧
        a.Rejects m name)
    (h : s.cover m siblings stem covered = .error (.stray name)) :
    ∃ a, Consults m siblings stem [s] a ∧ a.Rejects m name := by
  rw [cover_group hgroup] at h
  rcases bind_eq_error_iff.mp h with hsize | ⟨size, hsize, h⟩
  · exact absurd hsize (groupSize_ne_stray name)
  have hcount : Site.HasSize m ⟨siblings, stem, s⟩ size := groupSize_eq_ok_iff.mp hsize
  rcases bind_eq_error_iff.mp h with hmembers | ⟨members, hmembers, h⟩
  · obtain ⟨i, before, hfirst, hlast, herror, hpassed⟩ := coverFrom_eq_error hmembers
    obtain ⟨a, hconsults, hrejects⟩ := hmember i before herror
    refine ⟨a, .inside hgroup hcount hfirst (by omega) ?_ hconsults, hrejects⟩
    intro j hj hji
    obtain ⟨before, names, hok⟩ := hpassed j hj hji
    exact (covers_coverIn s.children s.children _).sound hok
  · split at h
    · rename_i hstray
      cases h
      refine ⟨⟨siblings, stem, s⟩, .here hgroup, ?_⟩
      exact (rejects_iff_strayField? hgroup hcount hmembers).mpr hstray
    · cases h

mutual

theorem exists_rejects_of_cover : (s : FieldSpec) → (siblings : List FieldSpec) →
    (stem : String) → (covered : List String) →
    s.cover m siblings stem covered = .error (.stray name) →
    ∃ a, Consults m siblings stem [s] a ∧ a.Rejects m name
  | ⟨_, _, mode, _, _, _, _, _, _, children⟩, siblings, stem, covered, h => by
    by_cases hmode : mode = .control
    · by_cases hchildren : children = []
      · rw [cover_control hmode hchildren] at h
        cases h
      · refine exists_rejects_of_cover_group (isGroup_iff.mpr ⟨hmode, hchildren⟩) ?_ h
        intro i covered
        exact exists_rejects_of_coverIn children children _ covered
    · rw [cover_field hmode] at h
      split at h
      · rename_i hcheck
        cases h
        exact absurd hcheck (check_ne_stray name)
      · cases h

theorem exists_rejects_of_coverIn : (specs siblings : List FieldSpec) → (stem : String) →
    (covered : List String) → coverIn m siblings stem specs covered = .error (.stray name) →
    ∃ a, Consults m siblings stem specs a ∧ a.Rejects m name
  | [], _, _, _, h => by cases h
  | s :: rest, siblings, stem, covered, h => by
    rcases bind_eq_error_iff.mp h with hfirst | ⟨names, hok, hrest⟩
    · obtain ⟨a, hconsults, hrejects⟩ := exists_rejects_of_cover s siblings stem covered hfirst
      exact ⟨a, hconsults.cons rest, hrejects⟩
    · obtain ⟨a, hconsults, hrejects⟩ := exists_rejects_of_coverIn rest siblings stem names hrest
      exact ⟨a, .behind ((covers_cover s siblings stem).sound hok) hconsults, hrejects⟩

end

/-! ## Groups in groups -/

theorem Consults.isGroup (h : Consults m siblings stem specs b) : b.group.isGroup = true := by
  induction h with
  | here hgroup => exact hgroup
  | inside _ _ _ _ _ _ ih => exact ih
  | behind _ _ ih => exact ih

/-- Where all specifications are satisfied, so are the groups that the check comes to. -/
theorem Consults.satisfied (h : Consults m siblings stem specs b)
    (hall : ∀ s ∈ specs, Satisfied m siblings stem s) : b.Satisfied m := by
  induction h with
  | here => exact hall _ List.mem_cons_self
  | inside hgroup hsize hfirst hlast _ _ ih =>
    obtain ⟨size', hsize', hmembers, -⟩ := (hall _ List.mem_cons_self).exists_size hgroup
    cases hsize.unique hsize'
    exact ih (hmembers _ hfirst hlast)
  | behind _ _ ih => exact ih fun s hs => hall s (List.mem_cons_of_mem _ hs)

theorem Consults.startsWith (h : Consults m siblings stem specs b) :
    Text.startsWith b.sizeField stem = true := by
  induction h with
  | here => exact startsWith_append _ _
  | inside _ _ _ _ _ _ ih => exact startsWith_of_memberStem ih
  | behind _ _ ih => exact ih

/-- A size field that is declared beside its group is declared wherever the check comes from. -/
theorem Consults.declares (h : Consults m siblings stem specs b)
    (hspecs : ∀ s ∈ specs, s ∈ siblings) (hs : s ∈ b.siblings) (hname : s.name = b.group.sizeName)
    (hmode : s.mode ≠ .control) : ∃ t ∈ siblings, Declares m siblings stem t b.sizeField := by
  induction h with
  | here =>
    refine ⟨s, hs, ?_⟩
    unfold Site.sizeField
    rw [← hname]
    exact .own hmode
  | inside hgroup hsize hfirst hlast _ _ ih =>
    obtain ⟨child, hchild, hdeclares⟩ := ih (fun _ hmem => hmem) hs hname
    exact ⟨_, hspecs _ List.mem_cons_self,
      .member hgroup hsize hfirst hlast hchild hdeclares⟩
  | behind _ _ ih => exact ih (fun t ht => hspecs t (List.mem_cons_of_mem _ ht)) hs hname

theorem Site.Encloses.declares (h : a.Encloses m b) (hgroup : a.group.isGroup = true)
    (hs : s ∈ b.siblings) (hname : s.name = b.group.sizeName) (hmode : s.mode ≠ .control) :
    a.Declares m b.sizeField := by
  obtain ⟨size, i, hsize, hfirst, hlast, hconsults⟩ := h
  obtain ⟨child, hchild, hdeclares⟩ := hconsults.declares (fun _ hmem => hmem) hs hname hmode
  exact .member hgroup hsize hfirst hlast hchild hdeclares

theorem Site.Encloses.startsWith (h : a.Encloses m b) :
    Text.startsWith b.sizeField a.groupStem = true := by
  obtain ⟨size, i, -, -, -, hconsults⟩ := h
  exact startsWith_trans hconsults.startsWith (startsWith_memberStem _ _ i)

/-- A group that passes declares the sizes of all groups in it: those that are there, as it has no
stray field, and those that are missing, as these have to be optional. -/
theorem Site.Satisfied.declares_sizeField (h : a.Satisfied m) (hgroup : a.group.isGroup = true)
    (hencloses : a.Encloses m b) : a.Declares m b.sizeField := by
  obtain ⟨size, i, hsize, hfirst, hlast, hconsults⟩ := id hencloses
  obtain ⟨size', hsize', hmembers, hdeclared⟩ := h.exists_size hgroup
  cases hsize.unique hsize'
  have hinner : b.Satisfied m := hconsults.satisfied (hmembers i hfirst hlast)
  obtain ⟨count, hcount, -⟩ := hinner.exists_size hconsults.isGroup
  cases hcount with
  | stated hfield =>
    have hpresent : b.sizeField ∈ m.fields.names := Message.mem_names_iff.mpr ⟨_, hfield⟩
    obtain ⟨j, hj, hjsize, child, hchild, hdeclares⟩ :=
      hdeclared b.sizeField hpresent hencloses.startsWith
    exact .member hgroup hsize hj hjsize hchild hdeclares
  | optional _ ht hname hoptional =>
    refine hencloses.declares hgroup ht hname ?_
    rw [hoptional]
    decide

/-! ## Templates -/

theorem detail_stray (name : String) :
    (Violation.stray name).detail = "Message contains user-defined field " ++ name :=
  rfl

/-- Of all violations only this stray field has its status. -/
theorem status_eq_stray_iff {subject : String} :
    v.status subject = (Violation.stray name).status subject ↔ v = .stray name := by
  constructor
  · intro h
    have hcode := congrArg Status.code h
    cases v with
    | stray other =>
      have hreason := congrArg Status.reason h
      rw [Violation.reason_status, Violation.reason_status, detail_stray, detail_stray] at hreason
      have hname := (String.append_right_inj _).mp ((String.append_right_inj _).mp hreason)
      rw [hname]
    | _ => cases hcode
  · rintro rfl
    rfl

theorem fieldViolation?_eq_some_iff :
    fieldViolation? m specs = some v ↔ coverIn m specs "" specs [] = .error v := by
  unfold fieldViolation?
  cases coverIn m specs "" specs [] with
  | ok => simp
  | error w => simp

namespace Template

variable {t : Template}

theorem value_check_eq_stray_iff :
    (t.check m).value = (Violation.stray name).status (t.subjectFor m) ↔
      fieldViolation? m t.fields = some (.stray name) := by
  rw [t.value_check]
  cases fieldViolation? m t.fields with
  | some v =>
    rw [Option.some.injEq]
    exact status_eq_stray_iff
  | none =>
    refine iff_of_false ?_ nofun
    intro h
    have hcode := congrArg Status.code h
    cases hsubject : subjectFault? m t.subject (t.subjectFor m) with
    | none =>
      rw [hsubject] at hcode
      cases hcode
    | some fault =>
      rw [hsubject] at hcode
      cases hcode

theorem fieldViolation?_eq_stray_iff :
    fieldViolation? m t.fields = some (.stray name) ↔
      ∃ a, Consults m t.fields "" t.fields a ∧ a.Rejects m name := by
  rw [fieldViolation?_eq_some_iff]
  constructor
  · exact exists_rejects_of_coverIn t.fields t.fields "" []
  · rintro ⟨a, hconsults, hrejects⟩
    exact hconsults.coverIn_eq hrejects []

/-- A field is reported as user-defined exactly if a group that the check comes to rejects it. The
size of a group in this group is not rejected if it is declared beside the inner group. But a message
passes only if a member declares it, so an inner group whose size is declared nowhere fails with
its size and without it. -/
theorem check_sizeFields (t : Template) (m : Message) :
    (∀ r r' : Registry, (r.resolve m).value = .ok (t, r') →
      (r.validate m).value = ((t.check m).value, r')) ∧
    (∀ name, (t.check m).value = (Violation.stray name).status (t.subjectFor m) ↔
      ∃ a, Consults m t.fields "" t.fields a ∧ a.Rejects m name) ∧
    (∀ a b : Site, a.Encloses m b →
      (∃ s ∈ b.siblings, s.name = b.group.sizeName ∧ s.mode ≠ .control) →
      ¬a.Rejects m b.sizeField) ∧
    ((t.check m).value.isOk = true → ∀ a, Consults m t.fields "" t.fields a →
      ∀ b, a.Encloses m b → a.Declares m b.sizeField) := by
  refine ⟨fun r r' => Registry.validate_resolved, ?_, ?_, ?_⟩
  · intro name
    rw [value_check_eq_stray_iff, fieldViolation?_eq_stray_iff]
  · rintro a b hencloses ⟨s, hs, hname, hmode⟩ hrejects
    exact hrejects.undeclared (hencloses.declares hrejects.group hs hname hmode)
  · intro hok a hconsults b hencloses
    have hsatisfied := hconsults.satisfied (check_isOk_iff.mp hok).1
    exact hsatisfied.declares_sizeField hconsults.isGroup hencloses

end Template

def planTemplate (declared : List FieldSpec) : Template where
  id := "PLAN"
  level := .base
  description := ""
  subject := []
  fields := [stepSpec declared]

def stepSite (declared : List FieldSpec) : Site := ⟨[stepSpec declared], "", stepSpec declared⟩

def paramSite (declared : List FieldSpec) (i : Nat) : Site :=
  ⟨(stepSpec declared).children, memberStem "" "STEP" i, paramSpec⟩

/-- The number of parameters is declared beside them, so the steps do not reject it. -/
theorem check_sizeFields_twoSteps :
    let t := planTemplate [paramCount]
    (t.check twoSteps).value.isOk = true ∧
      Consults twoSteps t.fields "" t.fields (stepSite [paramCount]) ∧
      (stepSite [paramCount]).Encloses twoSteps (paramSite [paramCount] 1) ∧
      (stepSite [paramCount]).Declares twoSteps (paramSite [paramCount] 1).sizeField ∧
      ¬(stepSite [paramCount]).Rejects twoSteps (paramSite [paramCount] 1).sizeField := by
  intro t
  obtain ⟨-, -, hdeclared, hok⟩ := t.check_sizeFields twoSteps
  have hpasses : (t.check twoSteps).value.isOk = true := by decide +kernel
  have hsteps : Consults twoSteps t.fields "" t.fields (stepSite [paramCount]) := .here rfl
  have hsize : (stepSite [paramCount]).HasSize twoSteps 2 :=
    groupSize_eq_ok_iff.mp (by decide +kernel)
  have hencloses : (stepSite [paramCount]).Encloses twoSteps (paramSite [paramCount] 1) := by
    refine ⟨2, 1, hsize, by decide, by decide, ?_⟩
    have hlabel : FieldSatisfied twoSteps (.new "LABEL" (.oneOf [.string]) .required)
        (memberStem "" "STEP" 1 ++ "LABEL") := fieldSatisfied_of_check (by decide +kernel)
    have hcount : FieldSatisfied twoSteps paramCount (memberStem "" "STEP" 1 ++ "NUM-OF-PARAMS") :=
      fieldSatisfied_of_check (by decide +kernel)
    exact .behind (.field nofun hlabel) (.behind (.field nofun hcount) (.here rfl))
  refine ⟨hpasses, hsteps, hencloses, hok hpasses _ hsteps _ hencloses, ?_⟩
  refine hdeclared _ _ hencloses ⟨paramCount, ?_, rfl, nofun⟩
  exact List.mem_cons_of_mem _ List.mem_cons_self

/-- The first step states that it has no parameters, rather than to leave the number out. -/
def countedSteps : Message :=
  twoSteps.add ⟨"STEP.1.NUM-OF-PARAMS", .integer .u8 ⟨0, by decide, by decide⟩, by decide⟩

/-- Where the number of parameters is not declared, a step is asked for it, and its field is then
reported as user-defined. -/
theorem countedSteps_size_rejected :
    let t := planTemplate []
    Consults countedSteps t.fields "" t.fields (paramSite [] 1) ∧
      (paramSite [] 1).sizeField = "STEP.1.NUM-OF-PARAMS" ∧
      (t.check countedSteps).value =
        (Violation.stray (paramSite [] 1).sizeField).status (t.subjectFor countedSteps) ∧
      (t.check twoSteps).value =
        (Violation.sizeMissing (paramSite [] 1).sizeField).status (t.subjectFor twoSteps) := by
  intro t
  have hsize : (stepSite []).HasSize countedSteps 2 := groupSize_eq_ok_iff.mp (by decide +kernel)
  have hlabel : FieldSatisfied countedSteps (.new "LABEL" (.oneOf [.string]) .required)
      (memberStem "" "STEP" 1 ++ "LABEL") := fieldSatisfied_of_check (by decide +kernel)
  refine ⟨?_, by decide +kernel, by decide +kernel, by decide +kernel⟩
  refine .inside rfl hsize (Nat.le_refl 1) (by decide) (fun j hj hlt => by omega) ?_
  exact .behind (.field nofun hlabel) (.here rfl)

end BusCompliance
