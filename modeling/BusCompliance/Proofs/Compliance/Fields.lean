import BusCompliance.Compliance.Fields
import BusCompliance.Proofs.Outcome

/-!
# Fields that satisfy their specifications

`Satisfied` says of a specification what the fields of a message have to be like, whatever the
order of the checks. The check passes exactly the satisfied specifications, and the names covered
on the way are exactly the declared ones. `Covers` is the invariant that carries both through the
members of a group.
-/

namespace BusCompliance

/-! ## Single fields -/

/-- A field may be absent unless it is required. One that is present has an accepted type, a listed
value if values are listed, and a text that matches the pattern if there is one. -/
inductive FieldSatisfied (m : Message) (s : FieldSpec) (name : String) : Prop
  | absent (hfield : m.field? name = none) (hmode : s.mode ≠ .required)
  | present {f : Field} (hfield : m.field? name = some f) (htype : s.type.accepts f.type = true)
      (hvalue : s.constraints = [] ∨ ∃ c ∈ s.constraints, c.allows f.value = true)
      (htext : ∀ p, s.pattern = some p → p.accepts f.text = true)

/-- The number of members of a group: the field for it as a whole number of 32 bits, or none if the
field is absent and a sibling makes it optional. -/
inductive HasSize (m : Message) (siblings : List FieldSpec) (stem : String) (s : FieldSpec) :
    Nat → Prop
  | stated {f : Field} {n : IntegerType.u32.Number} (hfield : m.field? (stem ++ s.sizeName) = some f)
      (hnumber : f.value.toInteger .u32 = .ok n) : HasSize m siblings stem s n.val.toNat
  | optional {t : FieldSpec} (habsent : m.field? (stem ++ s.sizeName) = none) (ht : t ∈ siblings)
      (hname : t.name = s.sizeName) (hmode : t.mode = .optional) : HasSize m siblings stem s 0

/-! ## Specifications -/

/-- A specification under a stem declares its own name unless it is a control one. A group declares
what its children declare under the stems of its members. -/
inductive Declares (m : Message) : List FieldSpec → String → FieldSpec → String → Prop
  | own {siblings : List FieldSpec} {stem : String} {s : FieldSpec} (hmode : s.mode ≠ .control) :
      Declares m siblings stem s (stem ++ s.name)
  | member {siblings : List FieldSpec} {stem name : String} {s child : FieldSpec} {size i : Nat}
      (hgroup : s.isGroup = true) (hsize : HasSize m siblings stem s size) (hfirst : 1 ≤ i)
      (hlast : i ≤ size) (hchild : child ∈ s.children)
      (h : Declares m s.children (memberStem stem s.elementName i) child name) :
      Declares m siblings stem s name

/-- The fields of a message are as a specification under a stem asks. -/
inductive Satisfied (m : Message) : List FieldSpec → String → FieldSpec → Prop
  | control {siblings : List FieldSpec} {stem : String} {s : FieldSpec} (hmode : s.mode = .control)
      (hchildren : s.children = []) : Satisfied m siblings stem s
  | field {siblings : List FieldSpec} {stem : String} {s : FieldSpec} (hmode : s.mode ≠ .control)
      (hfield : FieldSatisfied m s (stem ++ s.name)) : Satisfied m siblings stem s
  | group {siblings : List FieldSpec} {stem : String} {s : FieldSpec} {size : Nat}
      (hmode : s.mode = .control) (hchildren : s.children ≠ [])
      (hsize : HasSize m siblings stem s size)
      (hmembers : ∀ i, 1 ≤ i → i ≤ size → ∀ child ∈ s.children,
        Satisfied m s.children (memberStem stem s.elementName i) child)
      (hdeclared : ∀ name ∈ m.fields.names,
        Text.startsWith name (groupStem stem s.elementName) = true →
        ∃ i, 1 ≤ i ∧ i ≤ size ∧ ∃ child ∈ s.children,
          Declares m s.children (memberStem stem s.elementName i) child name) :
      Satisfied m siblings stem s

variable {m : Message} {siblings : List FieldSpec} {stem name : String} {s : FieldSpec}

theorem isGroup_iff : s.isGroup = true ↔ s.mode = .control ∧ s.children ≠ [] := by
  unfold FieldSpec.isGroup
  simp

/-- What it means for a group to be satisfied. -/
theorem Satisfied.exists_size (h : Satisfied m siblings stem s) (hgroup : s.isGroup = true) :
    ∃ size, HasSize m siblings stem s size ∧
      (∀ i, 1 ≤ i → i ≤ size → ∀ child ∈ s.children,
        Satisfied m s.children (memberStem stem s.elementName i) child) ∧
      ∀ name ∈ m.fields.names, Text.startsWith name (groupStem stem s.elementName) = true →
        ∃ i, 1 ≤ i ∧ i ≤ size ∧ ∃ child ∈ s.children,
          Declares m s.children (memberStem stem s.elementName i) child name := by
  obtain ⟨hmode, hchildren⟩ := isGroup_iff.mp hgroup
  cases h with
  | control _ hnone => exact absurd hnone hchildren
  | field hother => exact absurd hmode hother
  | group _ _ hsize hmembers hdeclared => exact ⟨_, hsize, hmembers, hdeclared⟩

/-! ## Checks of single fields -/

theorem value_allowed_iff (cs : List Constraint) (v : Value) :
    (!cs.isEmpty && !cs.any (·.allows v)) = false ↔ cs = [] ∨ ∃ c ∈ cs, c.allows v = true := by
  rw [← List.any_eq_true]
  cases cs with
  | nil => simp
  | cons c cs => cases (c :: cs).any (·.allows v) <;> simp

theorem fieldSatisfied_of_check (h : s.check m name = none) : FieldSatisfied m s name := by
  unfold FieldSpec.check at h
  split at h
  · rename_i hfield
    split at h
    · cases h
    · rename_i hmode
      exact .absent hfield hmode
  · rename_i f hfield
    split at h
    · cases h
    rename_i htype
    split at h
    · cases h
    rename_i hvalue
    refine .present hfield ?_ ?_ ?_
    · simpa using htype
    · rw [Bool.not_eq_true] at hvalue
      exact (value_allowed_iff s.constraints f.value).mp hvalue
    · intro p hp
      rw [hp] at h
      simpa using h

theorem check_of_fieldSatisfied (h : FieldSatisfied m s name) : s.check m name = none := by
  unfold FieldSpec.check
  cases h with
  | absent hfield hmode =>
    rw [hfield]
    exact if_neg hmode
  | present hfield htype hvalue htext =>
    have hlisted := (value_allowed_iff s.constraints _).mpr hvalue
    rw [hfield]
    simp only [htype, hlisted, Bool.not_true, Bool.false_eq_true, if_false]
    split
    · rename_i p hp
      rw [if_pos (htext p hp)]
    · rfl

theorem groupSize_eq_ok_iff {size : Nat} :
    s.groupSize m siblings stem = .ok size ↔ HasSize m siblings stem s size := by
  unfold FieldSpec.groupSize
  constructor
  · intro h
    simp only at h
    split at h
    · rename_i f hfield
      split at h
      · rename_i n hnumber
        cases h
        exact .stated hfield hnumber
      · cases h
    · rename_i habsent
      split at h
      · rename_i hany
        cases h
        obtain ⟨t, ht, hboth⟩ := List.any_eq_true.mp hany
        simp only [Bool.and_eq_true, beq_iff_eq] at hboth
        exact .optional habsent ht hboth.1 hboth.2
      · cases h
  · intro h
    cases h with
    | stated hfield hnumber => simp only [hfield, hnumber]
    | optional habsent ht hname hmode =>
      have hany : (siblings.any fun t => t.name == s.sizeName && t.mode == .optional) = true := by
        refine List.any_eq_true.mpr ⟨_, ht, ?_⟩
        simp [hname, hmode]
      simp only [habsent, hany, if_true]

/-! ## Checks of specifications -/

theorem strayField?_eq_none_iff {covered : List String} : strayField? m stem covered = none ↔
    ∀ name ∈ m.fields.names, Text.startsWith name stem = true → name ∈ covered := by
  unfold strayField?
  simp [List.find?_eq_none]

theorem cover_group (hgroup : s.isGroup = true) (covered : List String) :
    s.cover m siblings stem covered = (s.groupSize m siblings stem).bind fun size =>
      (coverFrom (fun i => coverIn m s.children (memberStem stem s.elementName i) s.children)
        size 1 []).bind fun members =>
        match strayField? m (groupStem stem s.elementName) members with
        | some name => .error (.stray name)
        | none => .ok (members ++ covered) := by
  cases s
  unfold FieldSpec.cover
  rw [if_pos hgroup]
  rfl

theorem cover_group_eq_ok_iff {covered names : List String} (hgroup : s.isGroup = true) :
    s.cover m siblings stem covered = .ok names ↔
      ∃ size members, s.groupSize m siblings stem = .ok size ∧
        coverFrom (fun i => coverIn m s.children (memberStem stem s.elementName i) s.children)
          size 1 [] = .ok members ∧
        strayField? m (groupStem stem s.elementName) members = none ∧
        names = members ++ covered := by
  rw [cover_group hgroup]
  constructor
  · intro h
    obtain ⟨size, hsize, h⟩ := bind_eq_ok_iff.mp h
    obtain ⟨members, hmembers, h⟩ := bind_eq_ok_iff.mp h
    split at h
    · cases h
    · rename_i hstray
      cases h
      exact ⟨size, members, hsize, hmembers, hstray, rfl⟩
  · rintro ⟨size, members, hsize, hmembers, hstray, rfl⟩
    rw [hsize]
    simp only [Except.bind, hmembers, hstray]

theorem cover_control (hmode : s.mode = .control) (hchildren : s.children = [])
    (covered : List String) : s.cover m siblings stem covered = .ok covered := by
  have hgroup : s.isGroup = false := by simp [FieldSpec.isGroup, hchildren]
  cases s
  unfold FieldSpec.cover
  rw [if_neg (by rw [hgroup]; decide), if_pos hmode]

theorem cover_field (hmode : s.mode ≠ .control) (covered : List String) :
    s.cover m siblings stem covered =
      match s.check m (stem ++ s.name) with
      | some v => .error v
      | none => .ok ((stem ++ s.name) :: covered) := by
  have hgroup : s.isGroup = false := by simp [FieldSpec.isGroup, hmode]
  cases s
  unfold FieldSpec.cover
  rw [if_neg (by rw [hgroup]; decide)]
  exact if_neg hmode

/-! ## Covered names -/

/-- The check passes exactly if `P` holds, and then puts exactly the names of which `Q` holds to
those that were covered. -/
structure Covers (check : List String → Except Violation (List String)) (P : Prop)
    (Q : String → Prop) : Prop where
  sound : ∀ {covered names}, check covered = .ok names → P
  covered_iff : ∀ {covered names}, check covered = .ok names →
    ∀ name, name ∈ names ↔ Q name ∨ name ∈ covered
  complete : P → ∀ covered, ∃ names, check covered = .ok names

namespace Covers

variable {check next : List String → Except Violation (List String)} {P P' : Prop}
  {Q Q' : String → Prop}

theorem of_iff (h : Covers check P Q) (hP : P ↔ P') (hQ : ∀ name, Q name ↔ Q' name) :
    Covers check P' Q' where
  sound hok := hP.mp (h.sound hok)
  covered_iff hok name := by rw [h.covered_iff hok, hQ]
  complete hp := h.complete (hP.mpr hp)

theorem done : Covers .ok True fun _ => False where
  sound _ := trivial
  covered_iff hok name := by cases hok; simp
  complete _ covered := ⟨covered, rfl⟩

theorem andThen (h : Covers check P Q) (hnext : Covers next P' Q') :
    Covers (fun covered => (check covered).bind next) (P ∧ P') fun name => Q name ∨ Q' name where
  sound {covered names} hok := by
    obtain ⟨between, hfirst, hrest⟩ := bind_eq_ok_iff.mp hok
    exact ⟨h.sound hfirst, hnext.sound hrest⟩
  covered_iff {covered names} hok name := by
    obtain ⟨between, hfirst, hrest⟩ := bind_eq_ok_iff.mp hok
    rw [hnext.covered_iff hrest, h.covered_iff hfirst, ← or_assoc, or_comm (a := Q' name)]
  complete hp covered := by
    obtain ⟨between, hfirst⟩ := h.complete hp.1 covered
    obtain ⟨names, hok⟩ := hnext.complete hp.2 between
    refine ⟨names, ?_⟩
    rw [hfirst]
    exact hok

end Covers

/-- Checks of numbers one after the other pass exactly if each of them does. -/
theorem covers_coverFrom {check : Nat → List String → Except Violation (List String)}
    {P : Nat → Prop} {Q : Nat → String → Prop} (h : ∀ i, Covers (check i) (P i) (Q i)) (n i : Nat) :
    Covers (coverFrom check n i) (∀ k, i ≤ k → k < i + n → P k)
      fun name => ∃ k, i ≤ k ∧ k < i + n ∧ Q k name := by
  induction n generalizing i with
  | zero =>
    refine Covers.done.of_iff ?_ ?_
    · refine ⟨fun _ k hle hlt => ?_, fun _ => trivial⟩
      omega
    · intro name
      refine ⟨False.elim, ?_⟩
      rintro ⟨k, hle, hlt, _⟩
      omega
  | succ n ih =>
    have hsteps : coverFrom check (n + 1) i =
        fun covered => (check i covered).bind (coverFrom check n (i + 1)) := by
      funext covered
      unfold coverFrom
      cases check i covered <;> rfl
    rw [hsteps]
    refine ((h i).andThen (ih (i + 1))).of_iff ?_ ?_
    · constructor
      · rintro ⟨hfirst, hrest⟩ k hle hlt
        by_cases hk : k = i
        · exact hk ▸ hfirst
        · exact hrest k (by omega) (by omega)
      · intro hall
        exact ⟨hall i (by omega) (by omega), fun k hle hlt => hall k (by omega) (by omega)⟩
    · intro name
      constructor
      · rintro (hfirst | ⟨k, hle, hlt, hk⟩)
        · exact ⟨i, by omega, by omega, hfirst⟩
        · exact ⟨k, by omega, by omega, hk⟩
      · rintro ⟨k, hle, hlt, hk⟩
        by_cases hki : k = i
        · exact .inl (hki ▸ hk)
        · exact .inr ⟨k, by omega, by omega, hk⟩

/-! ## The check is exact -/

theorem covers_field (hmode : s.mode ≠ .control) :
    Covers (s.cover m siblings stem) (Satisfied m siblings stem s)
      (Declares m siblings stem s) := by
  have hdeclares (name : String) : Declares m siblings stem s name ↔ name = stem ++ s.name := by
    constructor
    · intro h
      cases h with
      | own => rfl
      | member hgroup => exact absurd (isGroup_iff.mp hgroup).1 hmode
    · rintro rfl
      exact .own hmode
  refine ⟨?_, ?_, ?_⟩
  · intro covered names hok
    rw [cover_field hmode] at hok
    split at hok
    · cases hok
    · rename_i hcheck
      exact .field hmode (fieldSatisfied_of_check hcheck)
  · intro covered names hok name
    rw [cover_field hmode] at hok
    split at hok
    · cases hok
    · cases hok
      rw [hdeclares, List.mem_cons]
  · intro h covered
    have hfield : FieldSatisfied m s (stem ++ s.name) := by
      cases h with
      | field _ hfield => exact hfield
      | control hcontrol => exact absurd hcontrol hmode
      | group hcontrol => exact absurd hcontrol hmode
    refine ⟨(stem ++ s.name) :: covered, ?_⟩
    rw [cover_field hmode, check_of_fieldSatisfied hfield]

theorem covers_control (hmode : s.mode = .control) (hchildren : s.children = []) :
    Covers (s.cover m siblings stem) (Satisfied m siblings stem s)
      (Declares m siblings stem s) := by
  have hdeclares (name : String) : ¬Declares m siblings stem s name := by
    intro h
    cases h with
    | own hother => exact hother hmode
    | member hgroup => exact (isGroup_iff.mp hgroup).2 hchildren
  have hcover : s.cover m siblings stem = .ok := funext (cover_control hmode hchildren)
  rw [hcover]
  refine Covers.done.of_iff ?_ ?_
  · exact ⟨fun _ => .control hmode hchildren, fun _ => trivial⟩
  · intro name
    exact ⟨False.elim, fun h => hdeclares name h⟩

theorem declares_group_iff {size : Nat} (hgroup : s.isGroup = true)
    (hsize : s.groupSize m siblings stem = .ok size) :
    Declares m siblings stem s name ↔ ∃ i, 1 ≤ i ∧ i < 1 + size ∧ ∃ c ∈ s.children,
      Declares m s.children (memberStem stem s.elementName i) c name := by
  constructor
  · intro h
    cases h with
    | own hmode => exact absurd (isGroup_iff.mp hgroup).1 hmode
    | member _ hother hfirst hlast hchild h =>
      have hsame := hsize.symm.trans (groupSize_eq_ok_iff.mpr hother)
      cases hsame
      exact ⟨_, hfirst, by omega, _, hchild, h⟩
  · rintro ⟨i, hfirst, hlast, c, hchild, h⟩
    exact .member hgroup (groupSize_eq_ok_iff.mp hsize) hfirst (by omega) hchild h

theorem covers_group (hgroup : s.isGroup = true)
    (hmember : ∀ i, Covers
      (coverIn m s.children (memberStem stem s.elementName i) s.children)
      (∀ c ∈ s.children, Satisfied m s.children (memberStem stem s.elementName i) c)
      fun name => ∃ c ∈ s.children,
        Declares m s.children (memberStem stem s.elementName i) c name) :
    Covers (s.cover m siblings stem) (Satisfied m siblings stem s)
      (Declares m siblings stem s) := by
  obtain ⟨hmode, hchildren⟩ := isGroup_iff.mp hgroup
  have hrun (size : Nat) := covers_coverFrom hmember size 1
  refine ⟨?_, ?_, ?_⟩
  · intro covered names hok
    obtain ⟨size, members, hsize, hmembers, hstray, -⟩ := (cover_group_eq_ok_iff hgroup).mp hok
    refine .group hmode hchildren (groupSize_eq_ok_iff.mp hsize) ?_ ?_
    · intro i hfirst hlast
      exact (hrun size).sound hmembers i hfirst (by omega)
    · intro name hname hstem
      have hcovered := strayField?_eq_none_iff.mp hstray name hname hstem
      rcases ((hrun size).covered_iff hmembers name).mp hcovered with h | h
      · obtain ⟨i, hfirst, hlast, hdeclared⟩ := h
        exact ⟨i, hfirst, by omega, hdeclared⟩
      · cases h
  · intro covered names hok name
    obtain ⟨size, members, hsize, hmembers, -, rfl⟩ := (cover_group_eq_ok_iff hgroup).mp hok
    rw [List.mem_append, (hrun size).covered_iff hmembers name, declares_group_iff hgroup hsize]
    simp
  · intro h covered
    cases h with
    | control _ hnone => exact absurd hnone hchildren
    | field hother => exact absurd hmode hother
    | @group _ _ _ size _ _ hsize hmembers hdeclared =>
      -- what the members cover is what they declare, so no field that is declared is stray
      obtain ⟨members, hok⟩ := (hrun size).complete
        (fun i hfirst hlast => hmembers i hfirst (by omega)) []
      refine ⟨members ++ covered, (cover_group_eq_ok_iff hgroup).mpr ?_⟩
      refine ⟨size, members, groupSize_eq_ok_iff.mpr hsize, hok, ?_, rfl⟩
      rw [strayField?_eq_none_iff]
      intro name hname hstem
      obtain ⟨i, hfirst, hlast, hchild⟩ := hdeclared name hname hstem
      exact ((hrun size).covered_iff hok name).mpr (.inl ⟨i, hfirst, by omega, hchild⟩)

mutual

/-- The check of a specification passes exactly if it is satisfied, and covers what it declares. -/
theorem covers_cover : (s : FieldSpec) → (siblings : List FieldSpec) → (stem : String) →
    Covers (s.cover m siblings stem) (Satisfied m siblings stem s) (Declares m siblings stem s)
  | ⟨_, _, mode, _, _, _, _, _, _, children⟩, siblings, stem => by
    by_cases hmode : mode = .control
    · by_cases hchildren : children = []
      · exact covers_control hmode hchildren
      · refine covers_group (isGroup_iff.mpr ⟨hmode, hchildren⟩) ?_
        intro i
        exact covers_coverIn children children _
    · exact covers_field hmode

theorem covers_coverIn : (specs siblings : List FieldSpec) → (stem : String) →
    Covers (coverIn m siblings stem specs) (∀ s ∈ specs, Satisfied m siblings stem s)
      fun name => ∃ s ∈ specs, Declares m siblings stem s name
  | [], siblings, stem => by
    refine Covers.done.of_iff ?_ ?_
    · simp
    · simp
  | s :: rest, siblings, stem => by
    refine ((covers_cover s siblings stem).andThen (covers_coverIn rest siblings stem)).of_iff ?_ ?_
    · simp
    · simp

end

end BusCompliance
