import BusCompliance.Compliance.Violation

/-!
# Checking fields

The fields of a message against the specifications of a template, in their order. The names that are
covered on the way are kept: a group is checked member by member, and then no field under its name
may be left that its members do not cover. The first violation is the result.
-/

namespace BusCompliance

/-! ## Numbered members -/

/-- The names covered by the checks of the `n` numbers from `i` on, up to the first violation. -/
def coverFrom (check : Nat → List String → Except Violation (List String)) :
    Nat → Nat → List String → Except Violation (List String)
  | 0, _, covered => .ok covered
  | n + 1, i, covered =>
    match check i covered with
    | .ok covered => coverFrom check n (i + 1) covered
    | .error v => .error v

/-- What the names of a group's fields begin with. -/
def groupStem (stem element : String) : String := stem ++ element ++ "."

/-- What the names of the fields of one member begin with. -/
def memberStem (stem element : String) (index : Nat) : String :=
  groupStem stem element ++ Natural.text index ++ "."

/-! ## One specification -/

namespace FieldSpec

/-- Check the field of a name by a specification that is not a control one. -/
def check (s : FieldSpec) (m : Message) (name : String) : Option Violation :=
  match m.field? name with
  | none => if s.mode = .required then some (.missing name) else none
  | some f =>
    if !s.type.accepts f.type then some (.wrongType name f.type s.type)
    else if !s.constraints.isEmpty && !s.constraints.any (·.allows f.value) then
      some (.wrongValue name f.text s.constraints)
    else
      match s.pattern with
      | some p => if p.accepts f.text then none else some (.wrongContent name f.text p)
      | none => none

/-- The number of members of a group. The field for it may be missing only if a sibling makes it
optional; then there are none. -/
def groupSize (s : FieldSpec) (m : Message) (siblings : List FieldSpec) (stem : String) :
    Except Violation Nat :=
  let name := stem ++ s.sizeName
  match m.field? name with
  | some f =>
    match f.value.toInteger .u32 with
    | .ok n => .ok n.val.toNat
    | .error _ => .error (.sizeNotNumber name f.text)
  | none =>
    if siblings.any fun t => t.name == s.sizeName && t.mode == .optional then .ok 0
    else .error (.sizeMissing name)

end FieldSpec

/-! ## All specifications -/

/-- The first field that begins with the stem and that no member of the group covers. -/
def strayField? (m : Message) (stem : String) (covered : List String) : Option String :=
  m.fields.names.find? fun name => Text.startsWith name stem && !covered.contains name

mutual

/-- Check a specification, and put the names of the fields it covers to those that were covered. A
group covers what its members cover. -/
def FieldSpec.cover (m : Message) (siblings : List FieldSpec) (stem : String) :
    FieldSpec → List String → Except Violation (List String)
  | s@⟨_, _, _, _, _, _, _, _, _, children⟩, covered =>
    if s.isGroup then do
      let size ← s.groupSize m siblings stem
      let members ← coverFrom
        (fun i => coverIn m children (memberStem stem s.elementName i) children) size 1 []
      match strayField? m (groupStem stem s.elementName) members with
      | some name => .error (.stray name)
      | none => .ok (members ++ covered)
    else if s.mode = .control then .ok covered
    else
      match s.check m (stem ++ s.name) with
      | some v => .error v
      | none => .ok ((stem ++ s.name) :: covered)

/-- Check specifications that stand together, up to the first violation. -/
def coverIn (m : Message) (siblings : List FieldSpec) (stem : String) :
    List FieldSpec → List String → Except Violation (List String)
  | [], covered => .ok covered
  | s :: rest, covered => do
    let covered ← s.cover m siblings stem covered
    coverIn m siblings stem rest covered

end

/-- The first violation of a template's field specifications. -/
def fieldViolation? (m : Message) (specs : List FieldSpec) : Option Violation :=
  match coverIn m specs "" specs [] with
  | .ok _ => none
  | .error v => some v

end BusCompliance
