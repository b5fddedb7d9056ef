import BusCompliance.Proofs.Compliance.Checker
import BusCompliance.Proofs.Compliance.Obligation

/-!
# The first violation wins

A message that fails gets the status of the least obligation that it violates, whatever else is
wrong with it. The induction goes over the specifications and the numbers of the members, as the
check does; what passed before the failure is satisfied, so that nothing in it is violated.
-/

namespace BusCompliance

variable {m : Message} {siblings specs : List FieldSpec} {stem name : String} {s : FieldSpec}
  {v : Violation} {covered : List String}

/-! ## Single fields -/

/-- The least duty of a specification that is violated, is violated so. -/
def IsFirst (m : Message) (siblings : List FieldSpec) (stem : String) (s : FieldSpec)
    (v : Violation) : Prop :=
  ∃ duty, Violates m siblings stem s duty v ∧
    ∀ other w, Violates m siblings stem s other w → duty ≤ other

theorem isFirst_of_stage_le {duty : Duty} (h : Violates m siblings stem s duty v)
    (hplain : duty.stage < 5)
    (hleast : ∀ other w, Violates m siblings stem s other w → duty.stage ≤ other.stage) :
    IsFirst m siblings stem s v := by
  refine ⟨duty, h, ?_⟩
  intro other w hother
  exact Duty.le_of_stage_le (hleast other w hother) hplain

theorem allows_eq_false {value : Value} (h : s.constraints.any (·.allows value) = false) :
    ∀ c ∈ s.constraints, c.allows value = false := by
  intro c hc
  exact Bool.eq_false_iff.mpr (List.any_eq_false.mp h c hc)

theorem isFirst_of_check (hmode : s.mode ≠ .control) (h : s.check m (stem ++ s.name) = some v) :
    IsFirst m siblings stem s v := by
  have hgroup : ¬s.isGroup = true := fun hg => hmode (isGroup_iff.mp hg).1
  unfold FieldSpec.check at h
  split at h
  · rename_i habsent
    split at h
    · rename_i hrequired
      cases h
      exact isFirst_of_stage_le (.missing hrequired habsent) (by decide) fun _ _ _ => Nat.zero_le _
    · cases h
  · rename_i f hfield
    split at h
    · rename_i htype
      cases h
      refine isFirst_of_stage_le (.wrongType hmode hfield (by simpa using htype)) (by decide) ?_
      intro other w hother
      cases hother with
      | missing _ habsent => cases hfield.symm.trans habsent
      | _ => simp [Duty.stage]
    rename_i htype
    have haccepts : s.type.accepts f.type = true := by simpa using htype
    split at h
    · rename_i hvalue
      cases h
      obtain ⟨hlisted, hnone⟩ := Bool.and_eq_true_iff.mp hvalue
      have hvalues := allows_eq_false (Bool.not_eq_true' _ |>.mp hnone)
      refine isFirst_of_stage_le (.wrongValue hmode hfield (by simpa using hlisted) hvalues)
        (by decide) ?_
      intro other w hother
      cases hother with
      | missing _ habsent => cases hfield.symm.trans habsent
      | wrongType _ hfield' hrefused =>
        cases hfield.symm.trans hfield'
        cases hrefused.symm.trans haccepts
      | _ => simp [Duty.stage]
    rename_i hvalue
    have hallowed := (value_allowed_iff s.constraints f.value).mp (Bool.eq_false_iff.mpr hvalue)
    split at h
    · rename_i p hpattern
      split at h
      · cases h
      rename_i htext
      cases h
      refine isFirst_of_stage_le (.wrongContent hmode hfield hpattern (by simpa using htext))
        (by decide) ?_
      intro other w hother
      cases hother with
      | missing _ habsent => cases hfield.symm.trans habsent
      | wrongType _ hfield' hrefused =>
        cases hfield.symm.trans hfield'
        cases hrefused.symm.trans haccepts
      | wrongValue _ hfield' hlisted hvalues =>
        cases hfield.symm.trans hfield'
        rcases hallowed with hnil | ⟨c, hc, hallows⟩
        · exact absurd hnil hlisted
        · cases (hvalues c hc).symm.trans hallows
      | sizeMissing hg | sizeNotNumber hg | member hg | stray hg => exact absurd hg hgroup
      | wrongContent => exact Nat.le_refl _
    · cases h

/-! ## Groups -/

theorem isFirst_of_groupSize (hgroup : s.isGroup = true)
    (h : s.groupSize m siblings stem = .error v) : IsFirst m siblings stem s v := by
  have hmode := (isGroup_iff.mp hgroup).1
  have hviolates : Violates m siblings stem s .size v := by
    unfold FieldSpec.groupSize at h
    simp only at h
    split at h
    · rename_i f hfield
      split at h
      · cases h
      · rename_i e hnumber
        cases h
        refine .sizeNotNumber hgroup hfield ?_
        intro n hn
        cases hnumber.symm.trans hn
    · rename_i habsent
      split at h
      · cases h
      · rename_i hany
        cases h
        refine .sizeMissing hgroup habsent ?_
        intro t ht hname hoptional
        refine hany (List.any_eq_true.mpr ⟨t, ht, ?_⟩)
        simp [hname, hoptional]
  refine isFirst_of_stage_le hviolates (by decide) ?_
  intro other w hother
  cases hother with
  | missing hrequired => cases hmode.symm.trans hrequired
  | wrongType hother | wrongValue hother | wrongContent hother => exact absurd hmode hother
  | _ => simp [Duty.stage]

/-- A run of checks fails at a number before which all pass. -/
theorem coverFrom_eq_error {check : Nat → List String → Except Violation (List String)} {n i : Nat}
    (h : coverFrom check n i covered = .error v) :
    ∃ k before, i ≤ k ∧ k < i + n ∧ check k before = .error v ∧
      ∀ j, i ≤ j → j < k → ∃ before names, check j before = .ok names := by
  induction n generalizing i covered with
  | zero => cases h
  | succ n ih =>
    unfold coverFrom at h
    split at h
    · rename_i names hok
      obtain ⟨k, before, hle, hlt, herror, hpassed⟩ := ih h
      refine ⟨k, before, by omega, by omega, herror, ?_⟩
      intro j hij hjk
      rcases Nat.eq_or_lt_of_le hij with rfl | hlater
      · exact ⟨_, _, hok⟩
      · exact hpassed j hlater hjk
    · rename_i herror
      cases h
      refine ⟨i, covered, Nat.le_refl i, by omega, herror, ?_⟩
      intro j hij hji
      omega

/-- A stray field that is found comes before all others. -/
theorem strayField?_eq_some (h : strayField? m stem covered = some name) :
    (name ∈ m.fields.names ∧ Text.startsWith name stem = true ∧ name ∉ covered) ∧
      ∀ other ∈ m.fields.names, Text.startsWith other stem = true → other ∉ covered →
        name ≤ other := by
  have hsorted : m.fields.names.Pairwise (· < ·) := List.pairwise_map.mpr m.fields.sorted
  obtain ⟨hfound, before, after, hnames, hpassed⟩ := List.find?_eq_some_iff_append.mp h
  refine ⟨⟨List.mem_of_find?_eq_some h, ?_⟩, ?_⟩
  · simpa using hfound
  · intro other hother hstem hstray
    rw [hnames, List.mem_append, List.mem_cons] at hother
    rcases hother with hbefore | rfl | hafter
    · have hskipped := hpassed other hbefore
      simp [hstem, hstray] at hskipped
    · exact String.le_refl _
    · rw [hnames, List.pairwise_append, List.pairwise_cons] at hsorted
      exact String.not_lt.mp (String.lt_asymm (hsorted.2.1.1 other hafter))

/-- The first specification with a violated duty has it, and the least such duty is violated so. -/
def IsFirstIn (m : Message) (siblings : List FieldSpec) (stem : String) (specs : List FieldSpec)
    (v : Violation) : Prop :=
  ∃ (i : Nat) (s : FieldSpec) (duty : Duty), specs[i]? = some s ∧
    Violates m siblings stem s duty v ∧
    ∀ (j : Nat) (t : FieldSpec) (other : Duty) (w : Violation), specs[j]? = some t →
      Violates m siblings stem t other w → i < j ∨ i = j ∧ duty ≤ other

/-- In a group with a size, only members and stray fields can go wrong. -/
theorem Violates.of_size {duty : Duty} {size : Nat} (hgroup : s.isGroup = true)
    (hsize : HasSize m siblings stem s size) (h : Violates m siblings stem s duty v) :
    (∃ i c child inner, duty = .member i c inner ∧ 1 ≤ i ∧ i ≤ size ∧
      s.children[c]? = some child ∧
      Violates m s.children (memberStem stem s.elementName i) child inner v) ∨
    ∃ name ∈ m.fields.names, duty = .coverage name ∧
      Text.startsWith name (groupStem stem s.elementName) = true ∧
      ∀ i, 1 ≤ i → i ≤ size → ∀ child ∈ s.children,
        ¬Declares m s.children (memberStem stem s.elementName i) child name := by
  have hmode := (isGroup_iff.mp hgroup).1
  cases h with
  | missing hrequired => cases hmode.symm.trans hrequired
  | wrongType hnot | wrongValue hnot | wrongContent hnot => exact absurd hmode hnot
  | sizeMissing _ habsent hneeded =>
    cases hsize with
    | stated hfield => cases habsent.symm.trans hfield
    | optional _ ht hname hoptional => exact absurd hoptional (hneeded _ ht hname)
  | sizeNotNumber _ hfield hnumber =>
    cases hsize with
    | stated hfield' hn =>
      cases hfield.symm.trans hfield'
      exact absurd hn (hnumber _)
    | optional habsent => cases hfield.symm.trans habsent
  | member _ hsize' hfirst hlast hchild h =>
    cases hsize.unique hsize'
    exact .inl ⟨_, _, _, _, rfl, hfirst, hlast, hchild, h⟩
  | stray _ hsize' hname hstem hundeclared =>
    cases hsize.unique hsize'
    exact .inr ⟨_, hname, rfl, hstem, hundeclared⟩

theorem isFirst_of_member {size i : Nat} (hgroup : s.isGroup = true)
    (hsize : HasSize m siblings stem s size) (hfirst : 1 ≤ i) (hlast : i ≤ size)
    (hpassed : ∀ j, 1 ≤ j → j < i → ∀ child ∈ s.children,
      Satisfied m s.children (memberStem stem s.elementName j) child)
    (h : IsFirstIn m s.children (memberStem stem s.elementName i) s.children v) :
    IsFirst m siblings stem s v := by
  obtain ⟨c, child, duty, hchild, hviolates, hleast⟩ := h
  refine ⟨.member i c duty, .member hgroup hsize hfirst hlast hchild hviolates, ?_⟩
  intro other w hother
  rcases hother.of_size hgroup hsize with
    ⟨j, d, child', inner, rfl, hfirst', -, hchild', hinner⟩ | ⟨name, -, rfl, -⟩
  · rcases Nat.lt_trichotomy j i with hji | rfl | hij
    · have hsatisfied := hpassed j hfirst' hji child' (List.mem_of_getElem? hchild')
      exact absurd hsatisfied hinner.not_satisfied
    · rcases hleast d child' inner w hchild' hinner with hcd | ⟨rfl, hle⟩
      · exact .inr (.child hcd)
      · exact Duty.le_member hle
    · exact .inr (.number hij)
  · exact .inr (.stage (Nat.lt_succ_self 5))

theorem isFirst_of_stray {size : Nat} (hgroup : s.isGroup = true)
    (hsize : HasSize m siblings stem s size)
    (hmembers : ∀ i, 1 ≤ i → i ≤ size → ∀ child ∈ s.children,
      Satisfied m s.children (memberStem stem s.elementName i) child)
    (hcovered : ∀ name, name ∈ covered ↔ ∃ i, 1 ≤ i ∧ i ≤ size ∧ ∃ child ∈ s.children,
      Declares m s.children (memberStem stem s.elementName i) child name)
    (h : strayField? m (groupStem stem s.elementName) covered = some name) :
    IsFirst m siblings stem s (.stray name) := by
  obtain ⟨⟨hname, hstem, hstray⟩, hleast⟩ := strayField?_eq_some h
  refine ⟨.coverage name, .stray hgroup hsize hname hstem ?_, ?_⟩
  · intro i hfirst hlast child hchild hdeclares
    exact hstray ((hcovered name).mpr ⟨i, hfirst, hlast, child, hchild, hdeclares⟩)
  · intro other w hother
    rcases hother.of_size hgroup hsize with
      ⟨i, c, child, inner, rfl, hfirst, hlast, hchild, hinner⟩ | ⟨y, hy, rfl, hstem', hundeclared⟩
    · have hsatisfied := hmembers i hfirst hlast child (List.mem_of_getElem? hchild)
      exact absurd hsatisfied hinner.not_satisfied
    · refine Duty.le_coverage (hleast y hy hstem' ?_)
      intro hmem
      obtain ⟨i, hfirst, hlast, child, hchild, hdeclares⟩ := (hcovered y).mp hmem
      exact hundeclared i hfirst hlast child hchild hdeclares

theorem isFirst_of_cover_group (hgroup : s.isGroup = true)
    (hmember : ∀ i covered v,
      coverIn m s.children (memberStem stem s.elementName i) s.children covered = .error v →
      IsFirstIn m s.children (memberStem stem s.elementName i) s.children v)
    (h : s.cover m siblings stem covered = .error v) : IsFirst m siblings stem s v := by
  have hpass (i : Nat) := covers_coverIn s.children s.children (memberStem stem s.elementName i)
    (m := m)
  rw [cover_group hgroup] at h
  rcases bind_eq_error_iff.mp h with hsize | ⟨size, hsize, h⟩
  · exact isFirst_of_groupSize hgroup hsize
  have hcount := groupSize_eq_ok_iff.mp hsize
  rcases bind_eq_error_iff.mp h with hmembers | ⟨members, hmembers, h⟩
  · obtain ⟨i, before, hfirst, hlast, herror, hpassed⟩ := coverFrom_eq_error hmembers
    refine isFirst_of_member hgroup hcount hfirst (by omega) ?_ (hmember i before v herror)
    intro j hj hji
    obtain ⟨before, names, hok⟩ := hpassed j hj hji
    exact (hpass j).sound hok
  · have hrun := covers_coverFrom hpass size 1
    split at h
    · rename_i name hstray
      cases h
      refine isFirst_of_stray hgroup hcount ?_ ?_ hstray
      · intro i hfirst hlast
        exact hrun.sound hmembers i hfirst (by omega)
      · intro name
        simp only [hrun.covered_iff hmembers name, List.not_mem_nil, or_false, Nat.add_comm 1 size,
          Nat.lt_succ_iff]
    · cases h

/-! ## The check finds the first -/

theorem IsFirst.cons (h : IsFirst m siblings stem s v) :
    IsFirstIn m siblings stem (s :: specs) v := by
  obtain ⟨duty, hviolates, hleast⟩ := h
  refine ⟨0, s, duty, rfl, hviolates, ?_⟩
  intro j t other w ht hother
  cases j with
  | zero =>
    cases ht
    exact .inr ⟨rfl, hleast other w hother⟩
  | succ j => exact .inl (Nat.succ_pos j)

theorem IsFirstIn.cons (hs : Satisfied m siblings stem s) (h : IsFirstIn m siblings stem specs v) :
    IsFirstIn m siblings stem (s :: specs) v := by
  obtain ⟨i, t, duty, ht, hviolates, hleast⟩ := h
  refine ⟨i + 1, t, duty, ht, hviolates, ?_⟩
  intro j u other w hu hother
  cases j with
  | zero =>
    cases hu
    exact absurd hs hother.not_satisfied
  | succ j =>
    rcases hleast j u other w hu hother with hij | ⟨rfl, hle⟩
    · exact .inl (Nat.succ_lt_succ hij)
    · exact .inr ⟨rfl, hle⟩

mutual

theorem isFirst_of_cover : (s : FieldSpec) → (siblings : List FieldSpec) → (stem : String) →
    (covered : List String) → (v : Violation) → s.cover m siblings stem covered = .error v →
    IsFirst m siblings stem s v
  | ⟨_, _, mode, _, _, _, _, _, _, children⟩, siblings, stem, covered, v, h => by
    by_cases hmode : mode = .control
    · by_cases hchildren : children = []
      · rw [cover_control hmode hchildren] at h
        cases h
      · refine isFirst_of_cover_group (isGroup_iff.mpr ⟨hmode, hchildren⟩) ?_ h
        intro i covered v
        exact isFirstIn_of_coverIn children children _ covered v
    · rw [cover_field hmode] at h
      split at h
      · rename_i hcheck
        cases h
        exact isFirst_of_check hmode hcheck
      · cases h

theorem isFirstIn_of_coverIn : (specs siblings : List FieldSpec) → (stem : String) →
    (covered : List String) → (v : Violation) → coverIn m siblings stem specs covered = .error v →
    IsFirstIn m siblings stem specs v
  | [], _, _, _, _, h => by cases h
  | s :: rest, siblings, stem, covered, v, h => by
    rcases bind_eq_error_iff.mp h with hfirst | ⟨names, hok, hrest⟩
    · exact (isFirst_of_cover s siblings stem covered v hfirst).cons
    · have hs := (covers_cover s siblings stem).sound hok
      exact (isFirstIn_of_coverIn rest siblings stem names v hrest).cons hs

end

/-! ## Templates -/

/-- The least obligation that a message violates, and the one status that this earns it. -/
structure Template.LeastViolated (t : Template) (m : Message) (o : Obligation) (status : Status) :
    Prop where
  violated : t.Violates m o status
  unique : ∀ other, t.Violates m o other → other = status
  least : ∀ p other, t.Violates m p other → o ≤ p

/-- The words of a report before the name of the field. -/
def Violation.lead : Violation → String
  | .sizeMissing _ => "Message contains array of objects whose size is undefined: "
  | .stray _ => "Message contains user-defined field "
  | _ => ""

theorem lead_self (lead field : String) : ∃ rest, lead ++ field = lead ++ field ++ rest :=
  ⟨"", String.append_empty.symm⟩

theorem lead_append {lead text : String} (h : ∃ rest, text = lead ++ rest) (more : String) :
    ∃ rest, text ++ more = lead ++ rest := by
  obtain ⟨rest, rfl⟩ := h
  exact ⟨rest ++ more, String.append_assoc⟩

theorem Violation.detail_eq (v : Violation) : ∃ rest, v.detail = v.lead ++ v.name ++ rest := by
  have hself (field : String) : ∃ rest, field = "" ++ field ++ rest := by
    simpa only [String.empty_append] using lead_self "" field
  cases v with
  | missing field => exact lead_append (hself field) _
  | wrongType field =>
    iterate 4 refine lead_append ?_ _
    exact hself field
  | wrongValue field =>
    iterate 4 refine lead_append ?_ _
    exact hself field
  | wrongContent field =>
    iterate 5 refine lead_append ?_ _
    exact hself field
  | sizeMissing field => exact lead_append (lead_self _ field) _
  | sizeNotNumber field =>
    iterate 3 refine lead_append ?_ _
    exact hself field
  | stray field => exact lead_self _ field

theorem Violation.reason_status (v : Violation) (subject : String) :
    (v.status subject).reason = subject ++ ": Message Validation Failed.\n   " ++ v.detail :=
  rfl

theorem Template.leastViolated_field {t : Template} (h : fieldViolation? m t.fields = some v) :
    ∃ i duty s, t.LeastViolated m (.field i duty) (v.status (t.subjectFor m)) ∧
      t.fields[i]? = some s ∧ duty.field? "" s = some v.name := by
  unfold fieldViolation? at h
  split at h
  · cases h
  rename_i herror
  cases h
  obtain ⟨i, s, duty, hs, hviolates, hleast⟩ := isFirstIn_of_coverIn _ _ _ _ _ herror
  refine ⟨i, duty, s, ⟨.field hs hviolates, ?_, ?_⟩, hs, hviolates.field?_eq⟩
  · intro other hother
    cases hother with
    | field hs' hother =>
      cases hs.symm.trans hs'
      rw [hviolates.unique hother]
  · intro p other hother
    cases hother with
    | subject => exact .inr .subject
    | field ht hother =>
      rcases hleast _ _ _ _ ht hother with hij | ⟨rfl, hle⟩
      · exact .inr (.spec hij)
      · exact Obligation.le_field hle

theorem Template.leastViolated_subject {t : Template} {fault : SubjectFault}
    (hfields : fieldViolation? m t.fields = none)
    (hsubject : subjectFault? m t.subject (t.subjectFor m) = some fault) :
    t.LeastViolated m .subject (fault.status (t.subjectFor m)) := by
  have hunsatisfied : ¬SubjectSatisfied m t.subject (t.subjectFor m) := by
    rw [← subjectFault?_eq_none_iff, hsubject]
    exact fun h => nomatch h
  refine ⟨.subject hunsatisfied hsubject, ?_, ?_⟩
  · intro other hother
    cases hother with
    | subject _ hfault =>
      cases hsubject.symm.trans hfault
      rfl
  · intro p other hother
    cases hother with
    | subject => exact .inl rfl
    | field hs hother =>
      have hsatisfied := fieldViolation?_eq_none_iff.mp hfields _ (List.mem_of_getElem? hs)
      exact absurd hsatisfied hother.not_satisfied

theorem Template.not_violates_field {t : Template} (h : fieldViolation? m t.fields = none)
    (i : Nat) (duty : Duty) (status : Status) : ¬t.Violates m (.field i duty) status := by
  intro hviolates
  cases hviolates with
  | field hs hviolates =>
    have hsatisfied := fieldViolation?_eq_none_iff.mp h _ (List.mem_of_getElem? hs)
    exact hviolates.not_satisfied hsatisfied

/-- What a check comes to, without what it reports on the way. -/
theorem Template.value_check (t : Template) (m : Message) : (t.check m).value =
    match fieldViolation? m t.fields, subjectFault? m t.subject (t.subjectFor m) with
    | some v, _ => v.status (t.subjectFor m)
    | none, some fault => fault.status (t.subjectFor m)
    | none, none => .ok := by
  unfold check
  simp only
  cases fieldViolation? m t.fields with
  | some v => rfl
  | none =>
    cases subjectFault? m t.subject (t.subjectFor m) with
    | some fault => rfl
    | none => rfl

/-- A message that fails by a template gets the status of the least obligation that it violates.
The subject is blamed only if all fields are as they should be, and a report on a field names the
field of its obligation. -/
theorem Template.check_leastViolated {t : Template} {m : Message}
    (hfail : (t.check m).value.isOk = false) :
    ∃ (o : Obligation) (status : Status), t.LeastViolated m o status ∧ (t.check m).value = status ∧
      (∀ (r r' : Registry), (r.resolve m).value = .ok (t, r') →
        (r.validate m).value = (status, r')) ∧
      (status.code = .invalidSubjectName → ∀ i duty other, ¬t.Violates m (.field i duty) other) ∧
      ∀ i duty, o = .field i duty → ∃ (s : FieldSpec) (v : Violation) (rest : String),
        t.fields[i]? = some s ∧ duty.field? "" s = some v.name ∧
        status.code = v.code ∧ status.reason =
          t.subjectFor m ++ ": Message Validation Failed.\n   " ++ (v.lead ++ v.name ++ rest) := by
  have hcheck := t.value_check m
  cases hfields : fieldViolation? m t.fields with
  | some v =>
    rw [hfields] at hcheck
    obtain ⟨i, duty, s, hleast, hs, hname⟩ := leastViolated_field hfields
    refine ⟨.field i duty, _, hleast, hcheck, ?_, ?_, ?_⟩
    · intro r r' h
      rw [Registry.validate_resolved h, hcheck]
    · intro hcode
      cases v <;> cases hcode
    · rintro _ _ ⟨⟩
      obtain ⟨rest, hdetail⟩ := v.detail_eq
      exact ⟨s, v, rest, hs, hname, rfl, by rw [v.reason_status, hdetail]⟩
  | none =>
    cases hsubject : subjectFault? m t.subject (t.subjectFor m) with
    | none =>
      rw [hcheck, hfields, hsubject] at hfail
      cases hfail
    | some fault =>
      rw [hfields, hsubject] at hcheck
      refine ⟨.subject, _, leastViolated_subject hfields hsubject, hcheck, ?_, ?_, ?_⟩
      · intro r r' h
        rw [Registry.validate_resolved h, hcheck]
      · intro _
        exact not_violates_field hfields
      · rintro _ _ ⟨⟩

theorem allBlank_size : Text.allBlank "NUM-OF-ARGUMENTS" = false := by decide

theorem allBlank_first : Text.allBlank "ARGUMENT.1.NAME" = false := by decide

/-- A directive of two arguments with everything wrong at once: the first name is a number, the
second is missing, there is a third, and so is the subject. -/
def crowdedDirective : Message where
  kind := .request
  subject := some "REQ..dir"
  fields := .ofList [
    ⟨"NUM-OF-ARGUMENTS", .integer .u16 ⟨2, by decide, by decide⟩, allBlank_size⟩,
    ⟨"ARGUMENT.1.NAME", .integer .u16 ⟨7, by decide, by decide⟩, allBlank_first⟩,
    ⟨"ARGUMENT.3.NAME", .string "FILE", by decide⟩]
  binding := none
  subject_filled := by decide

theorem Template.check_leastViolated_crowded :
    (Registry.directiveTemplate.check crowdedDirective).value.isOk = false ∧
      ∃ o, Registry.directiveTemplate.LeastViolated crowdedDirective o
        (.failure .msgError .incorrectFieldType ("REQ..dir: Message Validation Failed.\n   " ++
          "ARGUMENT.1.NAME has incorrect field type of U16.  Valid type(s): STRING")) := by
  have hfail : (Registry.directiveTemplate.check crowdedDirective).value.isOk = false := by
    decide +kernel
  obtain ⟨o, status, hleast, hstatus, -⟩ := check_leastViolated hfail
  refine ⟨hfail, o, ?_⟩
  have hsame : (Registry.directiveTemplate.check crowdedDirective).value =
      .failure .msgError .incorrectFieldType ("REQ..dir: Message Validation Failed.\n   " ++
        "ARGUMENT.1.NAME has incorrect field type of U16.  Valid type(s): STRING") := by
    decide +kernel
  rw [← hsame, hstatus]
  exact hleast

end BusCompliance
