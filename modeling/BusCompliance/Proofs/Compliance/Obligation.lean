import BusCompliance.Compliance.Checker
import BusCompliance.Proofs.Compliance.Fields
import BusCompliance.Proofs.Compliance.Subject

/-!
# Obligations in their order

What a template asks of a message, one thing at a time, and the order that these stand in:
specification by specification, member by member, and the subject last. `Violates` says what it
means not to meet a duty, whatever else is wrong with the message.
-/

namespace BusCompliance

/-- Equal or before is a linear order, if before is irreflexive and transitive and orders any two. -/
theorem isLinearOrder_of_before {α : Type} [LE α] {before : α → α → Prop}
    (hle : ∀ {a b : α}, a ≤ b ↔ a = b ∨ before a b) (hirrefl : ∀ a, ¬before a a)
    (htrans : ∀ {a b c}, before a b → before b c → before a c)
    (htotal : ∀ a b : α, a ≤ b ∨ b ≤ a) : Std.IsLinearOrder α where
  le_refl _ := hle.mpr (.inl rfl)
  le_trans a b c hab hbc := by
    rcases hle.mp hab with rfl | hab
    · exact hbc
    · rcases hle.mp hbc with rfl | hbc
      · exact hle.mpr (.inr hab)
      · exact hle.mpr (.inr (htrans hab hbc))
  le_antisymm a b hab hba := by
    rcases hle.mp hab with rfl | hab
    · rfl
    · rcases hle.mp hba with rfl | hba
      · rfl
      · exact absurd (htrans hab hba) (hirrefl a)
  le_total := htotal

/-! ## Duties of one specification -/

/-- Members are counted from 1, the children of a group from 0. -/
inductive Duty
  | presence
  | type
  | value
  | content
  | size
  | member (number child : Nat) (duty : Duty)
  /-- The field of this name begins like a member, so it has to be declared by one. -/
  | coverage (name : String)

namespace Duty

/-- The stages of a check, in their order. -/
def stage : Duty → Nat
  | presence => 0
  | type => 1
  | value => 2
  | content => 3
  | size => 4
  | member .. => 5
  | coverage _ => 6

/-- The order of stages, of members and their children, and of names. -/
inductive Before : Duty → Duty → Prop
  | stage {a b : Duty} (h : a.stage < b.stage) : Before a b
  | number {i j c d : Nat} {a b : Duty} (h : i < j) : Before (member i c a) (member j d b)
  | child {i c d : Nat} {a b : Duty} (h : c < d) : Before (member i c a) (member i d b)
  | inner {i c : Nat} {a b : Duty} (h : Before a b) : Before (member i c a) (member i c b)
  | name {x y : String} (h : x < y) : Before (coverage x) (coverage y)

instance : LE Duty := ⟨fun a b => a = b ∨ a.Before b⟩

theorem stage_le_of_before {a b : Duty} (h : a.Before b) : a.stage ≤ b.stage := by
  cases h with
  | stage h => exact Nat.le_of_lt h
  | number | child | inner | name => exact Nat.le_refl _

theorem before_irrefl (a : Duty) : ¬a.Before a := by
  intro h
  induction a with
  | member i c a ih =>
    cases h with
    | stage h | number h | child h => exact Nat.lt_irrefl _ h
    | inner h => exact ih h
  | coverage x =>
    cases h with
    | stage h => exact Nat.lt_irrefl _ h
    | name h => exact String.lt_irrefl x h
  | presence | type | value | content | size =>
    cases h with
    | stage h => exact Nat.lt_irrefl _ h

theorem before_trans {a b c : Duty} (hab : a.Before b) (hbc : b.Before c) : a.Before c := by
  induction hab generalizing c with
  | stage h => exact .stage (Nat.lt_of_lt_of_le h (stage_le_of_before hbc))
  | number h =>
    cases hbc with
    | stage h' => exact .stage h'
    | number h' => exact .number (Nat.lt_trans h h')
    | child | inner => exact .number h
  | child h =>
    cases hbc with
    | stage h' => exact .stage h'
    | number h' => exact .number h'
    | child h' => exact .child (Nat.lt_trans h h')
    | inner => exact .child h
  | inner h ih =>
    cases hbc with
    | stage h' => exact .stage h'
    | number h' => exact .number h'
    | child h' => exact .child h'
    | inner h' => exact .inner (ih h')
  | name h =>
    cases hbc with
    | stage h' => exact .stage h'
    | name h' => exact .name (String.lt_trans h h')

theorem le_member {i c : Nat} {a b : Duty} (h : a ≤ b) : member i c a ≤ member i c b := by
  rcases h with rfl | h
  · exact .inl rfl
  · exact .inr (.inner h)

theorem le_coverage {x y : String} (h : x ≤ y) : coverage x ≤ coverage y := by
  by_cases hxy : x = y
  · exact .inl (congrArg coverage hxy)
  · refine .inr (.name (Decidable.byContradiction fun hn => hxy ?_))
    exact String.le_antisymm h (String.not_lt.mp hn)

theorem eq_of_stage_eq {a b : Duty} (h : a.stage = b.stage) (hplain : a.stage < 5) : a = b := by
  cases a <;> cases b <;> simp_all [stage]

/-- Duties of different stages are in the order of these; within a stage their data decide. -/
theorem le_total (a b : Duty) : a ≤ b ∨ b ≤ a := by
  induction a generalizing b with
  | member i c a ih =>
    rcases b with _ | _ | _ | _ | _ | ⟨j, d, b⟩ | y
    case member =>
      rcases Nat.lt_trichotomy i j with hij | rfl | hij
      · exact .inl (.inr (.number hij))
      · rcases Nat.lt_trichotomy c d with hcd | rfl | hcd
        · exact .inl (.inr (.child hcd))
        · exact (ih b).imp le_member le_member
        · exact .inr (.inr (.child hcd))
      · exact .inr (.inr (.number hij))
    case coverage => exact .inl (.inr (.stage (Nat.lt_succ_self 5)))
    all_goals exact .inr (.inr (.stage (by simp [stage])))
  | coverage x =>
    cases b with
    | coverage y => exact (String.le_total x y).imp le_coverage le_coverage
    | _ => exact .inr (.inr (.stage (by simp [stage])))
  | presence | type | value | content | size =>
    rcases Nat.lt_trichotomy _ b.stage with h | h | h
    · exact .inl (.inr (.stage h))
    · exact .inl (.inl (eq_of_stage_eq h (by simp [stage])))
    · exact .inr (.inr (.stage h))

instance : Std.IsLinearOrder Duty :=
  isLinearOrder_of_before Iff.rfl before_irrefl before_trans le_total

/-- Before the members, the stages alone decide. -/
theorem le_of_stage_le {a b : Duty} (h : a.stage ≤ b.stage) (hplain : a.stage < 5) : a ≤ b := by
  rcases Nat.lt_or_eq_of_le h with hlt | heq
  · exact .inr (.stage hlt)
  · exact .inl (eq_of_stage_eq heq hplain)

/-- The field that a duty of a specification under a stem is about. -/
def field? (stem : String) (s : FieldSpec) : Duty → Option String
  | presence | type | value | content => some (stem ++ s.name)
  | size => some (stem ++ s.sizeName)
  | member i c duty =>
    (s.children[c]?).bind fun child => duty.field? (memberStem stem s.elementName i) child
  | coverage name => some name

end Duty

/-! ## Duties that are violated -/

/-- A message does not meet a duty of a specification under a stem. The members of a group are
those that its size field counts; without a size there are none to look at. -/
inductive Violates (m : Message) :
    List FieldSpec → String → FieldSpec → Duty → Violation → Prop
  | missing {siblings : List FieldSpec} {stem : String} {s : FieldSpec} (hmode : s.mode = .required)
      (habsent : m.field? (stem ++ s.name) = none) :
      Violates m siblings stem s .presence (.missing (stem ++ s.name))
  | wrongType {siblings : List FieldSpec} {stem : String} {s : FieldSpec} {f : Field}
      (hmode : s.mode ≠ .control) (hfield : m.field? (stem ++ s.name) = some f)
      (htype : s.type.accepts f.type = false) :
      Violates m siblings stem s .type (.wrongType (stem ++ s.name) f.type s.type)
  | wrongValue {siblings : List FieldSpec} {stem : String} {s : FieldSpec} {f : Field}
      (hmode : s.mode ≠ .control) (hfield : m.field? (stem ++ s.name) = some f)
      (hlisted : s.constraints ≠ []) (hvalue : ∀ c ∈ s.constraints, c.allows f.value = false) :
      Violates m siblings stem s .value (.wrongValue (stem ++ s.name) f.text s.constraints)
  | wrongContent {siblings : List FieldSpec} {stem : String} {s : FieldSpec} {f : Field}
      {p : Pattern} (hmode : s.mode ≠ .control) (hfield : m.field? (stem ++ s.name) = some f)
      (hpattern : s.pattern = some p) (htext : p.accepts f.text = false) :
      Violates m siblings stem s .content (.wrongContent (stem ++ s.name) f.text p)
  | sizeMissing {siblings : List FieldSpec} {stem : String} {s : FieldSpec}
      (hgroup : s.isGroup = true) (habsent : m.field? (stem ++ s.sizeName) = none)
      (hneeded : ∀ t ∈ siblings, t.name = s.sizeName → t.mode ≠ .optional) :
      Violates m siblings stem s .size (.sizeMissing (stem ++ s.sizeName))
  | sizeNotNumber {siblings : List FieldSpec} {stem : String} {s : FieldSpec} {f : Field}
      (hgroup : s.isGroup = true) (hfield : m.field? (stem ++ s.sizeName) = some f)
      (hnumber : ∀ n, f.value.toInteger .u32 ≠ .ok n) :
      Violates m siblings stem s .size (.sizeNotNumber (stem ++ s.sizeName) f.text)
  | member {siblings : List FieldSpec} {stem : String} {s child : FieldSpec} {size i c : Nat}
      {duty : Duty} {v : Violation} (hgroup : s.isGroup = true)
      (hsize : HasSize m siblings stem s size) (hfirst : 1 ≤ i) (hlast : i ≤ size)
      (hchild : s.children[c]? = some child)
      (h : Violates m s.children (memberStem stem s.elementName i) child duty v) :
      Violates m siblings stem s (.member i c duty) v
  | stray {siblings : List FieldSpec} {stem name : String} {s : FieldSpec} {size : Nat}
      (hgroup : s.isGroup = true) (hsize : HasSize m siblings stem s size)
      (hname : name ∈ m.fields.names)
      (hstem : Text.startsWith name (groupStem stem s.elementName) = true)
      (hundeclared : ∀ i, 1 ≤ i → i ≤ size → ∀ child ∈ s.children,
        ¬Declares m s.children (memberStem stem s.elementName i) child name) :
      Violates m siblings stem s (.coverage name) (.stray name)

section Violations

variable {m : Message} {siblings : List FieldSpec} {stem name : String} {s : FieldSpec}
  {duty : Duty} {v w : Violation}

theorem HasSize.unique {size size' : Nat} (h : HasSize m siblings stem s size)
    (h' : HasSize m siblings stem s size') : size = size' := by
  have heq := (groupSize_eq_ok_iff.mpr h).symm.trans (groupSize_eq_ok_iff.mpr h')
  cases heq
  rfl

/-- A violation names the field that its duty is about. -/
theorem Violates.field?_eq (h : Violates m siblings stem s duty v) :
    duty.field? stem s = some v.name := by
  induction h with
  | member _ _ _ _ hchild _ ih =>
    unfold Duty.field?
    rw [hchild]
    exact ih
  | _ => rfl

/-- A duty is violated in one way only. -/
theorem Violates.unique (h : Violates m siblings stem s duty v)
    (h' : Violates m siblings stem s duty w) : v = w := by
  induction h with
  | missing =>
    cases h'
    rfl
  | wrongType _ hfield =>
    cases h' with
    | wrongType _ hfield' =>
      cases hfield.symm.trans hfield'
      rfl
  | wrongValue _ hfield =>
    cases h' with
    | wrongValue _ hfield' =>
      cases hfield.symm.trans hfield'
      rfl
  | wrongContent _ hfield hpattern =>
    cases h' with
    | wrongContent _ hfield' hpattern' =>
      cases hfield.symm.trans hfield'
      cases hpattern.symm.trans hpattern'
      rfl
  | sizeMissing _ habsent =>
    cases h' with
    | sizeMissing => rfl
    | sizeNotNumber _ hfield => cases habsent.symm.trans hfield
  | sizeNotNumber _ hfield =>
    cases h' with
    | sizeMissing _ habsent => cases habsent.symm.trans hfield
    | sizeNotNumber _ hfield' =>
      cases hfield.symm.trans hfield'
      rfl
  | member _ _ _ _ hchild _ ih =>
    cases h' with
    | member _ _ _ _ hchild' h' =>
      cases hchild.symm.trans hchild'
      exact ih h'
  | stray =>
    cases h'
    rfl

/-- No duty of a satisfied specification is violated. -/
theorem Violates.not_satisfied (h : Violates m siblings stem s duty v) :
    ¬Satisfied m siblings stem s := by
  intro hs
  induction h with
  | missing hmode habsent =>
    cases hs with
    | control hcontrol | group hcontrol => cases hmode.symm.trans hcontrol
    | field _ hfield =>
      cases hfield with
      | absent _ hother => exact hother hmode
      | present hpresent => cases habsent.symm.trans hpresent
  | wrongType hmode hfield htype =>
    cases hs with
    | control hcontrol | group hcontrol => exact hmode hcontrol
    | field _ hother =>
      cases hother with
      | absent habsent => cases hfield.symm.trans habsent
      | present hpresent haccepts =>
        cases hfield.symm.trans hpresent
        cases htype.symm.trans haccepts
  | wrongValue hmode hfield hlisted hvalue =>
    cases hs with
    | control hcontrol | group hcontrol => exact hmode hcontrol
    | field _ hother =>
      cases hother with
      | absent habsent => cases hfield.symm.trans habsent
      | present hpresent _ hallowed =>
        cases hfield.symm.trans hpresent
        rcases hallowed with hnil | ⟨c, hc, hallows⟩
        · exact hlisted hnil
        · cases (hvalue c hc).symm.trans hallows
  | wrongContent hmode hfield hpattern htext =>
    cases hs with
    | control hcontrol | group hcontrol => exact hmode hcontrol
    | field _ hother =>
      cases hother with
      | absent habsent => cases hfield.symm.trans habsent
      | present hpresent _ _ haccepts =>
        cases hfield.symm.trans hpresent
        cases htext.symm.trans (haccepts _ hpattern)
  | sizeMissing hgroup habsent hneeded =>
    obtain ⟨size, hsize, -⟩ := hs.exists_size hgroup
    cases hsize with
    | stated hfield => cases habsent.symm.trans hfield
    | optional _ ht hname hoptional => exact hneeded _ ht hname hoptional
  | sizeNotNumber hgroup hfield hnumber =>
    obtain ⟨size, hsize, -⟩ := hs.exists_size hgroup
    cases hsize with
    | stated hfield' hn =>
      cases hfield.symm.trans hfield'
      exact hnumber _ hn
    | optional habsent => cases hfield.symm.trans habsent
  | member hgroup hsize hfirst hlast hchild _ ih =>
    obtain ⟨size', hsize', hmembers, -⟩ := hs.exists_size hgroup
    cases hsize.unique hsize'
    exact ih (hmembers _ hfirst hlast _ (List.mem_of_getElem? hchild))
  | stray hgroup hsize hname hstem hundeclared =>
    obtain ⟨size', hsize', -, hdeclared⟩ := hs.exists_size hgroup
    cases hsize.unique hsize'
    obtain ⟨i, hfirst, hlast, child, hchild, hdeclares⟩ := hdeclared _ hname hstem
    exact hundeclared i hfirst hlast child hchild hdeclares

end Violations

/-! ## Obligations of a template -/

/-- Specifications are counted from 0. -/
inductive Obligation
  | field (spec : Nat) (duty : Duty)
  | subject

namespace Obligation

/-- Specifications in their order, and the subject after all of them. -/
inductive Before : Obligation → Obligation → Prop
  | spec {i j : Nat} {a b : Duty} (h : i < j) : Before (field i a) (field j b)
  | duty {i : Nat} {a b : Duty} (h : a.Before b) : Before (field i a) (field i b)
  | subject {i : Nat} {a : Duty} : Before (field i a) subject

instance : LE Obligation := ⟨fun a b => a = b ∨ a.Before b⟩

theorem before_trans {a b c : Obligation} (hab : a.Before b) (hbc : b.Before c) : a.Before c := by
  cases hab with
  | spec h =>
    cases hbc with
    | spec h' => exact .spec (Nat.lt_trans h h')
    | duty => exact .spec h
    | subject => exact .subject
  | duty h =>
    cases hbc with
    | spec h' => exact .spec h'
    | duty h' => exact .duty (Duty.before_trans h h')
    | subject => exact .subject
  | subject => cases hbc

theorem before_irrefl (a : Obligation) : ¬a.Before a := by
  intro h
  cases h with
  | spec h => exact Nat.lt_irrefl _ h
  | duty h => exact Duty.before_irrefl _ h

theorem le_field {i : Nat} {a b : Duty} (h : a ≤ b) : field i a ≤ field i b := by
  rcases h with rfl | h
  · exact .inl rfl
  · exact .inr (.duty h)

theorem le_total (a b : Obligation) : a ≤ b ∨ b ≤ a := by
  cases a with
  | subject =>
    cases b with
    | field => exact .inr (.inr .subject)
    | subject => exact .inl (.inl rfl)
  | field i a =>
    cases b with
    | subject => exact .inl (.inr .subject)
    | field j b =>
      rcases Nat.lt_trichotomy i j with h | rfl | h
      · exact .inl (.inr (.spec h))
      · exact (Duty.le_total a b).imp le_field le_field
      · exact .inr (.inr (.spec h))

instance : Std.IsLinearOrder Obligation :=
  isLinearOrder_of_before Iff.rfl before_irrefl before_trans le_total

end Obligation

/-- A message does not meet an obligation of a template, which earns it a status. -/
inductive Template.Violates (t : Template) (m : Message) : Obligation → Status → Prop
  | field {i : Nat} {s : FieldSpec} {duty : Duty} {v : Violation} (hspec : t.fields[i]? = some s)
      (h : BusCompliance.Violates m t.fields "" s duty v) :
      Violates t m (.field i duty) (v.status (t.subjectFor m))
  | subject {fault : SubjectFault} (hsubject : ¬SubjectSatisfied m t.subject (t.subjectFor m))
      (hfault : subjectFault? m t.subject (t.subjectFor m) = some fault) :
      Violates t m .subject (fault.status (t.subjectFor m))

end BusCompliance
