import BusCompliance.Proofs.Compliance.Congruence
import BusCompliance.Proofs.Text.Dotted
import BusCompliance.Proofs.Value.Text
import Mathlib.Data.List.Nodup
import Mathlib.Data.List.Perm.Subperm

/-!
# Members of a group

The fields of a group stand under its stem, behind the number of their member and a dot. A group
that passes has no other members than its size counts, and if each member has a required field, it
has all of them.
-/

namespace BusCompliance

variable {m : Message} {siblings : List FieldSpec} {stem name text : String} {s child : FieldSpec}

/-! ## Numbers in names -/

/-- What stands between a stem and the next dot of a name. -/
def Text.between? (stem name : String) : Option String :=
  ((dropStem stem.toList name.toList).bind (splitFirst '.')).map fun parts => String.ofList parts.1

theorem between?_append (hdot : '.' ∉ text.toList) (stem rest : String) :
    Text.between? stem (stem ++ text ++ "." ++ rest) = some text := by
  unfold Text.between?
  have hname : (stem ++ text ++ "." ++ rest).toList =
      stem.toList ++ (text.toList ++ '.' :: rest.toList) := by
    simp
  rw [hname, Text.dropStem_append, Option.bind_some, Text.splitFirst_append hdot]
  simp

theorem startsWith_of_between? (h : Text.between? stem name = some text) :
    Text.startsWith name stem = true := by
  unfold Text.between? at h
  obtain ⟨parts, hparts, -⟩ := Option.map_eq_some_iff.mp h
  obtain ⟨rest, hstem, -⟩ := Option.bind_eq_some_iff.mp hparts
  unfold Text.startsWith
  rw [List.isPrefixOf_iff_prefix, Text.eq_append_of_dropStem hstem]
  exact List.prefix_append _ _

theorem Natural.dot_not_mem_text (n : Nat) : '.' ∉ (Natural.text n).toList := by
  intro hmem
  unfold Natural.text at hmem
  rw [String.toList_ofList] at hmem
  obtain ⟨d, hd, hdot⟩ := Natural.mem_digits hmem
  have hdigits : ∀ d < 10, '.' ≠ digitChar d := by decide
  exact hdigits d hd hdot

theorem Natural.ofDigits?_text (n : Nat) : Natural.ofDigits? (Natural.text n).toList = some n := by
  unfold Natural.text
  rw [String.toList_ofList, Natural.ofDigits?_digits]

theorem Natural.text_injective : Function.Injective Natural.text := by
  intro i j h
  have hread := Natural.ofDigits?_text i
  rw [h, Natural.ofDigits?_text j] at hread
  exact (Option.some.inj hread).symm

/-- The number of a member stands behind the stem of its group. -/
theorem between?_memberStem {element : String} {i : Nat}
    (h : Text.startsWith name (memberStem stem element i) = true) :
    Text.between? (groupStem stem element) name = some (Natural.text i) := by
  unfold Text.startsWith at h
  obtain ⟨rest, hrest⟩ := List.isPrefixOf_iff_prefix.mp h
  have hname : name =
      groupStem stem element ++ Natural.text i ++ "." ++ String.ofList rest := by
    apply String.toList_inj.mp
    rw [← hrest]
    unfold memberStem
    simp
  rw [hname]
  exact between?_append (Natural.dot_not_mem_text i) _ _

/-! ## Members -/

/-- Every field under the stem belongs to a numbered member, and the numbers are those from 1 to the
size, each written in its shortest form. -/
structure HasMembers (m : Message) (stem : String) (size : Nat) : Prop where
  numbered : ∀ name ∈ m.fields.names, Text.startsWith name stem = true →
    (Text.between? stem name).isSome = true
  numbers_iff : ∀ text, (∃ name ∈ m.fields.names, Text.between? stem name = some text) ↔
    ∃ i, 1 ≤ i ∧ i ≤ size ∧ text = Natural.text i

namespace HasMembers

variable {size : Nat}

/-- No field belongs to a member of another number, or of a number that is written in another
way. -/
theorem eq_text (h : HasMembers m stem size) (hname : name ∈ m.fields.names)
    (htext : Text.between? stem name = some text) {n : Nat}
    (hn : Natural.ofDigits? text.toList = some n) :
    1 ≤ n ∧ n ≤ size ∧ text = Natural.text n := by
  obtain ⟨i, hfirst, hlast, rfl⟩ := (h.numbers_iff text).mp ⟨name, hname, htext⟩
  cases (Natural.ofDigits?_text i).symm.trans hn
  exact ⟨hfirst, hlast, rfl⟩

/-- Each member has a field of its own. -/
theorem size_le (h : HasMembers m stem size) :
    size ≤ (m.fields.names.filter (Text.startsWith · stem)).length := by
  have hdistinct : ((List.range' 1 size).map Natural.text).Nodup :=
    List.Nodup.map Natural.text_injective List.nodup_range'
  have hsubset : (List.range' 1 size).map Natural.text ⊆
      (m.fields.names.filter (Text.startsWith · stem)).filterMap (Text.between? stem) := by
    intro text htext
    obtain ⟨i, hi, rfl⟩ := List.mem_map.mp htext
    obtain ⟨hfirst, hlast⟩ := List.mem_range'_1.mp hi
    obtain ⟨name, hname, hbetween⟩ := (h.numbers_iff _).mpr ⟨i, hfirst, by omega, rfl⟩
    refine List.mem_filterMap.mpr ⟨name, List.mem_filter.mpr ⟨hname, ?_⟩, hbetween⟩
    exact startsWith_of_between? hbetween
  have hle := (hdistinct.subperm hsubset).length_le
  rw [List.length_map, List.length_range'] at hle
  exact Nat.le_trans hle (List.length_filterMap_le _ _)

end HasMembers

/-! ## Groups that pass -/

theorem Declares.startsWith (h : Declares m siblings stem s name) :
    Text.startsWith name stem = true := by
  induction h with
  | own => exact startsWith_append _ _
  | member _ _ _ _ _ _ ih => exact startsWith_of_memberStem ih

/-- A required field that satisfies its specification is there. -/
theorem Satisfied.mem_names (h : Satisfied m siblings stem s) (hmode : s.mode = .required) :
    stem ++ s.name ∈ m.fields.names := by
  cases h with
  | control hcontrol | group hcontrol => cases hmode.symm.trans hcontrol
  | field _ hfield =>
    cases hfield with
    | absent _ hother => exact absurd hmode hother
    | present hpresent => exact Message.mem_names_iff.mpr ⟨_, hpresent⟩

theorem Satisfied.hasMembers (hgroup : s.isGroup = true) (hchild : child ∈ s.children)
    (hmode : child.mode = .required) (h : Satisfied m siblings stem s) :
    ∃ size, HasSize m siblings stem s size ∧
      HasMembers m (groupStem stem s.elementName) size := by
  obtain ⟨size, hsize, hmembers, hdeclared⟩ := h.exists_size hgroup
  -- a field that a member declares stands behind the number of this member
  have hnumber (name : String) (hname : name ∈ m.fields.names)
      (hstem : Text.startsWith name (groupStem stem s.elementName) = true) :
      ∃ i, 1 ≤ i ∧ i ≤ size ∧
        Text.between? (groupStem stem s.elementName) name = some (Natural.text i) := by
    obtain ⟨i, hfirst, hlast, c, -, hdeclares⟩ := hdeclared name hname hstem
    exact ⟨i, hfirst, hlast, between?_memberStem hdeclares.startsWith⟩
  refine ⟨size, hsize, ?_, ?_⟩
  · intro name hname hstem
    obtain ⟨i, -, -, hbetween⟩ := hnumber name hname hstem
    rw [hbetween]
    rfl
  · intro text
    constructor
    · rintro ⟨name, hname, htext⟩
      obtain ⟨i, hfirst, hlast, hbetween⟩ := hnumber name hname (startsWith_of_between? htext)
      exact ⟨i, hfirst, hlast, Option.some.inj (htext.symm.trans hbetween)⟩
    · rintro ⟨i, hfirst, hlast, rfl⟩
      have hfield := (hmembers i hfirst hlast child hchild).mem_names hmode
      exact ⟨_, hfield, between?_memberStem (startsWith_append _ _)⟩

/-- A group that passes, and whose members have a required field, has exactly the members that its
size counts. It has a field for each of them at least, and no field with the number zero, a number
above the size or a number that is written with zeros in front. -/
theorem cover_hasMembers (hgroup : s.isGroup = true)
    (hrequired : ∃ child ∈ s.children, child.mode = .required) {covered names : List String}
    (h : s.cover m siblings stem covered = .ok names) :
    ∃ size, s.groupSize m siblings stem = .ok size ∧
      HasMembers m (groupStem stem s.elementName) size ∧
      size ≤ (m.fields.names.filter (Text.startsWith · (groupStem stem s.elementName))).length ∧
      ∀ name ∈ m.fields.names, ∀ text n,
        Text.between? (groupStem stem s.elementName) name = some text →
        Natural.ofDigits? text.toList = some n → 1 ≤ n ∧ n ≤ size ∧ text = Natural.text n := by
  obtain ⟨child, hchild, hmode⟩ := hrequired
  have hsatisfied := (covers_cover s siblings stem).sound h
  obtain ⟨size, hsize, hmembers⟩ := hsatisfied.hasMembers hgroup hchild hmode
  refine ⟨size, groupSize_eq_ok_iff.mpr hsize, hmembers, hmembers.size_le, ?_⟩
  intro name hname text n htext hn
  exact hmembers.eq_text hname htext hn

def paramSpec : FieldSpec :=
  { FieldSpec.new "PARAMS" .variable .control with
    element := some "PARAM"
    children := [.new "VALUE" .variable .required] }

/-- Steps with a label and parameters each. What is declared beside these, the size of their group
among it, is left open. -/
def stepSpec (declared : List FieldSpec) : FieldSpec :=
  { FieldSpec.new "STEPS" .variable .control with
    element := some "STEP"
    children := .new "LABEL" (.oneOf [.string]) .required :: declared ++ [paramSpec] }

/-- The number of parameters, which may be missing if there are none. -/
def paramCount : FieldSpec := .new "NUM-OF-PARAMS" .variable .optional

/-- Two steps, of which the second has a parameter. -/
def twoSteps : Message :=
  (Message.new .request).addAll [
    ⟨"NUM-OF-STEPS", .integer .u8 ⟨2, by decide, by decide⟩, by decide⟩,
    ⟨"STEP.1.LABEL", .string "ALIGN", by decide⟩,
    ⟨"STEP.2.LABEL", .string "CUT", by decide⟩,
    ⟨"STEP.2.NUM-OF-PARAMS", .integer .u8 ⟨1, by decide, by decide⟩, by decide⟩,
    ⟨"STEP.2.PARAM.1.VALUE", .bool true, by decide⟩]

/-- The parameter of the second step is a field of the group, and belongs to its member too. -/
theorem cover_hasMembers_twoSteps :
    let s := stepSpec [paramCount]
    s.isGroup = true ∧ (∃ child ∈ s.children, child.mode = .required) ∧
      (∃ names, s.cover twoSteps [s] "" [] = .ok names) ∧
      s.groupSize twoSteps [s] "" = .ok 2 ∧ HasMembers twoSteps "STEP." 2 ∧
      Text.between? "STEP." "STEP.2.PARAM.1.VALUE" = some "2" := by
  intro s
  have hcover : s.cover twoSteps [s] "" [] = .ok ["STEP.2.PARAM.1.VALUE",
      "STEP.2.NUM-OF-PARAMS", "STEP.2.LABEL", "STEP.1.NUM-OF-PARAMS", "STEP.1.LABEL"] := by
    decide +kernel
  have hsize : s.groupSize twoSteps [s] "" = .ok 2 := by decide +kernel
  have hrequired : ∃ child ∈ s.children, child.mode = .required :=
    ⟨_, List.mem_cons_self, rfl⟩
  obtain ⟨size, hsize', hmembers, -⟩ := cover_hasMembers rfl hrequired hcover
  cases hsize.symm.trans hsize'
  exact ⟨rfl, hrequired, ⟨_, hcover⟩, hsize, hmembers, by decide +kernel⟩

end BusCompliance
