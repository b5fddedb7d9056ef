import BusCompliance.Compliance.Checker
import BusCompliance.Proofs.Compliance.Fields

/-!
# What the check looks at

The check of a template looks at the fields that its specifications and its subject name, at the
sizes of its groups, and at all that stands under the stems of these groups. Two messages that agree
on these fields get the same status under the same subject.
-/

namespace BusCompliance

/-! ## Messages that agree -/

/-- The two messages have the same fields of some names. -/
def Message.AgreeOn (names : String → Prop) (m p : Message) : Prop :=
  ∀ name, names name → p.field? name = m.field? name

variable {m p : Message} {names names' : String → Prop} {stem name : String} {s : FieldSpec}
  {specs : List FieldSpec}

namespace Message

theorem AgreeOn.mono (h : m.AgreeOn names p) (hsub : ∀ name, names' name → names name) :
    m.AgreeOn names' p :=
  fun name hname => h name (hsub name hname)

theorem agreeOn_of_fields (hfields : p.fields = m.fields) : m.AgreeOn names p :=
  fun name _ => field?_congr hfields name

theorem mem_names_iff : name ∈ m.fields.names ↔ ∃ f, m.field? name = some f := by
  constructor
  · intro h
    obtain ⟨f, hf, rfl⟩ := List.mem_map.mp h
    exact ⟨f, Roster.get?_of_mem hf⟩
  · rintro ⟨f, hf⟩
    exact List.mem_map.mpr ⟨f, Roster.mem_of_get? hf, Roster.key_of_get? hf⟩

theorem sorted_names (m : Message) : m.fields.names.Pairwise (· < ·) :=
  List.pairwise_map.mpr m.fields.sorted

/-- Messages that agree on some names list the same of them, in the same order. -/
theorem AgreeOn.filter_names {test : String → Bool} (h : m.AgreeOn (fun name => test name = true) p) :
    p.fields.names.filter test = m.fields.names.filter test := by
  have hsorted (q : Message) : (q.fields.names.filter test).Pairwise (· < ·) :=
    q.sorted_names.filter test
  have hnodup (q : Message) : (q.fields.names.filter test).Nodup := by
    refine (hsorted q).imp ?_
    rintro a _ hlt rfl
    exact String.lt_irrefl a hlt
  have hperm : (p.fields.names.filter test).Perm (m.fields.names.filter test) := by
    refine (List.perm_ext_iff_of_nodup (hnodup p) (hnodup m)).mpr ?_
    intro name
    rw [List.mem_filter, List.mem_filter, mem_names_iff, mem_names_iff]
    refine and_congr_left ?_
    intro htest
    rw [h name htest]
  refine hperm.eq_of_pairwise ?_ (hsorted p) (hsorted m)
  intro a b _ _ hab hba
  exact absurd hba (String.lt_asymm hab)

end Message

/-! ## Stems -/

theorem startsWith_append (stem rest : String) : Text.startsWith (stem ++ rest) stem = true := by
  unfold Text.startsWith
  rw [List.isPrefixOf_iff_prefix, String.toList_append]
  exact List.prefix_append _ _

theorem startsWith_trans {stem' : String} (h : Text.startsWith name stem' = true)
    (h' : Text.startsWith stem' stem = true) : Text.startsWith name stem = true := by
  unfold Text.startsWith at *
  rw [List.isPrefixOf_iff_prefix] at *
  exact h'.trans h

theorem startsWith_memberStem (stem element : String) (i : Nat) :
    Text.startsWith (memberStem stem element i) (groupStem stem element) = true := by
  unfold memberStem
  rw [String.append_assoc]
  exact startsWith_append _ _

theorem startsWith_groupStem (stem element : String) :
    Text.startsWith (groupStem stem element) stem = true := by
  unfold groupStem
  rw [String.append_assoc]
  exact startsWith_append _ _

/-- The fields of a member also begin with what stands before the group. -/
theorem startsWith_of_memberStem {element : String} {i : Nat}
    (h : Text.startsWith name (memberStem stem element i) = true) :
    Text.startsWith name stem = true :=
  startsWith_trans h (startsWith_trans (startsWith_memberStem _ _ _) (startsWith_groupStem _ _))

/-! ## Fields -/

/-- The names of fields that the check of a specification under a stem may look at. -/
inductive FieldSpec.Reads (stem : String) (s : FieldSpec) : String → Prop
  | own (hmode : s.mode ≠ .control) : Reads stem s (stem ++ s.name)
  | size (hgroup : s.isGroup = true) : Reads stem s (stem ++ s.sizeName)
  | member {name : String} (hgroup : s.isGroup = true)
      (hstem : Text.startsWith name (groupStem stem s.elementName) = true) : Reads stem s name

theorem FieldSpec.Reads.startsWith (h : s.Reads stem name) : Text.startsWith name stem = true := by
  cases h with
  | own => exact startsWith_append _ _
  | size => exact startsWith_append _ _
  | member _ hstem => exact startsWith_trans hstem (startsWith_groupStem _ _)

theorem groupSize_agree (h : p.field? (stem ++ s.sizeName) = m.field? (stem ++ s.sizeName))
    (siblings : List FieldSpec) : s.groupSize p siblings stem = s.groupSize m siblings stem := by
  unfold FieldSpec.groupSize
  simp only [h]

theorem fieldCheck_agree (h : p.field? name = m.field? name) : s.check p name = s.check m name := by
  unfold FieldSpec.check
  rw [h]

theorem strayField?_agree (h : m.AgreeOn (fun name => Text.startsWith name stem = true) p)
    (covered : List String) : strayField? p stem covered = strayField? m stem covered := by
  have hlisted (q : Message) : strayField? q stem covered =
      (q.fields.names.filter (Text.startsWith · stem)).find? fun name => !covered.contains name := by
    unfold strayField?
    rw [List.find?_filter]
    simp only [Bool.decide_and, Bool.decide_eq_true]
  rw [hlisted, hlisted, h.filter_names]

/-- All that the members of a group are looked at for stands under the stem of the group. -/
theorem agreeOn_member (hgroup : s.isGroup = true) (h : m.AgreeOn (s.Reads stem) p) (i : Nat) :
    m.AgreeOn (fun name => ∃ c ∈ s.children, c.Reads (memberStem stem s.elementName i) name) p := by
  refine h.mono ?_
  rintro name ⟨c, -, hreads⟩
  exact .member hgroup (startsWith_trans hreads.startsWith (startsWith_memberStem stem _ i))

theorem cover_group_agree {siblings : List FieldSpec} (hgroup : s.isGroup = true)
    (h : m.AgreeOn (s.Reads stem) p)
    (hmember : ∀ i, coverIn p s.children (memberStem stem s.elementName i) s.children =
      coverIn m s.children (memberStem stem s.elementName i) s.children) (covered : List String) :
    s.cover p siblings stem covered = s.cover m siblings stem covered := by
  have hunder := h.mono fun _ hname => .member hgroup hname
  rw [cover_group hgroup, cover_group hgroup, groupSize_agree (h _ (.size hgroup))]
  simp only [hmember, strayField?_agree hunder]

mutual

theorem cover_agree (siblings : List FieldSpec) (stem : String) : (s : FieldSpec) →
    m.AgreeOn (s.Reads stem) p → (covered : List String) →
    s.cover p siblings stem covered = s.cover m siblings stem covered
  | ⟨_, _, mode, _, _, _, _, _, _, children⟩, h, covered => by
    by_cases hmode : mode = .control
    · by_cases hchildren : children = []
      · rw [cover_control hmode hchildren, cover_control hmode hchildren]
      · refine cover_group_agree (isGroup_iff.mpr ⟨hmode, hchildren⟩) h ?_ covered
        intro i
        have hunder := agreeOn_member (isGroup_iff.mpr ⟨hmode, hchildren⟩) h i
        exact funext (coverIn_agree children _ children hunder)
    · rw [cover_field hmode, cover_field hmode, fieldCheck_agree (h _ (.own hmode))]

theorem coverIn_agree (siblings : List FieldSpec) (stem : String) : (specs : List FieldSpec) →
    m.AgreeOn (fun name => ∃ s ∈ specs, s.Reads stem name) p → (covered : List String) →
    coverIn p siblings stem specs covered = coverIn m siblings stem specs covered
  | [], _, _ => rfl
  | s :: rest, h, covered => by
    have hfirst := h.mono fun name hreads => ⟨s, List.mem_cons_self, hreads⟩
    have hrest : m.AgreeOn (fun name => ∃ s ∈ rest, s.Reads stem name) p := by
      refine h.mono ?_
      rintro name ⟨c, hc, hreads⟩
      exact ⟨c, List.mem_cons_of_mem s hc, hreads⟩
    unfold coverIn
    rw [cover_agree siblings stem s hfirst]
    exact congrArg _ (funext (coverIn_agree siblings stem rest hrest))

end

/-! ## Subjects -/

/-- The names of fields that the elements of a subject are bound to. -/
def BoundIn (elements : List SubjectElement) (name : String) : Prop :=
  ∃ e ∈ elements, ∃ names, e.rule = .field names ∧ name ∈ names

variable {elements : List SubjectElement}

theorem boundField?_agree {bound : List String} (h : m.AgreeOn (· ∈ bound) p) :
    Template.boundField? p bound = Template.boundField? m bound := by
  unfold Template.boundField?
  induction bound with
  | nil => rfl
  | cons name rest ih =>
    rw [List.findSome?_cons, List.findSome?_cons, h name List.mem_cons_self,
      ih (h.mono fun name hname => List.mem_cons_of_mem _ hname)]

theorem token?_agree {e : SubjectElement} (h : m.AgreeOn (BoundIn elements) p) (he : e ∈ elements) :
    Template.token? p e = Template.token? m e := by
  unfold Template.token?
  split
  · rfl
  · rename_i bound hrule
    rw [boundField?_agree (h.mono fun _ hname => ⟨e, he, bound, hrule, hname⟩)]
  · rfl

theorem BoundIn.cons (e : SubjectElement) (h : BoundIn elements name) :
    BoundIn (e :: elements) name := by
  obtain ⟨e', he', hbound⟩ := h
  exact ⟨e', List.mem_cons_of_mem e he', hbound⟩

theorem tokens_agree (h : m.AgreeOn (BoundIn elements) p) :
    Template.tokens p elements = Template.tokens m elements := by
  induction elements with
  | nil => rfl
  | cons e es ih =>
    unfold Template.tokens
    rw [token?_agree h List.mem_cons_self, ih (h.mono fun _ hbound => hbound.cons e)]

theorem elementFault?_agree {e : SubjectElement} (h : m.AgreeOn (BoundIn elements) p)
    (he : e ∈ elements) (token : String) : e.fault? p token = e.fault? m token := by
  unfold SubjectElement.fault?
  rcases hrule : e.rule with text | bound | values
  · rfl
  · unfold TokenRule.fault?
    simp only [boundField?_agree (h.mono fun _ hname => ⟨e, he, bound, hrule, hname⟩)]
  · rfl

theorem tokensFault?_agree (h : m.AgreeOn (BoundIn elements) p) (tokens : List String) :
    tokensFault? p elements tokens = tokensFault? m elements tokens := by
  induction elements generalizing tokens with
  | nil => cases tokens <;> rfl
  | cons e es ih =>
    have hrest := h.mono fun _ hbound => BoundIn.cons e hbound
    cases tokens with
    | nil =>
      unfold tokensFault?
      rw [ih hrest]
    | cons token tokens =>
      unfold tokensFault?
      rw [elementFault?_agree h List.mem_cons_self, ih hrest]

theorem subjectFault?_agree (h : m.AgreeOn (BoundIn elements) p) (subject : String) :
    subjectFault? p elements subject = subjectFault? m elements subject := by
  unfold subjectFault?
  rw [tokensFault?_agree h]

/-! ## Statuses -/

namespace Template

variable {t : Template}

/-- The names of fields that the check by a template may look at. -/
def Reads (t : Template) (name : String) : Prop :=
  (∃ s ∈ t.fields, s.Reads "" name) ∨ BoundIn t.subject name

theorem buildSubject_agree (h : m.AgreeOn (BoundIn t.subject) p) :
    t.buildSubject p = t.buildSubject m := by
  unfold buildSubject
  rw [tokens_agree h]

theorem buildSubject_congr (hfields : p.fields = m.fields) (t : Template) :
    t.buildSubject p = t.buildSubject m :=
  buildSubject_agree (Message.agreeOn_of_fields hfields)

/-- Messages that agree on what the check looks at get the same status under the same subject. -/
theorem check_agree (h : m.AgreeOn t.Reads p) (hsubject : t.subjectFor p = t.subjectFor m) :
    (t.check p).value = (t.check m).value := by
  have hfields := coverIn_agree t.fields "" t.fields (h.mono fun _ hreads => .inl hreads)
  have hbound := h.mono fun _ hbound => .inr hbound
  unfold check fieldViolation?
  simp only [hsubject, hfields, subjectFault?_agree hbound]

theorem check_congr (hfields : p.fields = m.fields) (hsubject : t.subjectFor p = t.subjectFor m) :
    (t.check p).value = (t.check m).value :=
  check_agree (Message.agreeOn_of_fields hfields) hsubject

end Template

end BusCompliance
