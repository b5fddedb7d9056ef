import BusCompliance.Schema.Directory
import BusCompliance.Template.Basic
import BusCompliance.Toml.Record

/-!
# Schema documents

A document describes one schema at one level. `FieldDecl.toSpec` and `SubjectDecl.toElement` give
its parts their meaning, or say what is wrong with them.
-/

namespace BusCompliance

/-- The type names that a document gives for a field. -/
inductive TypeDecl
  | one (name : String)
  | many (names : List String)
deriving DecidableEq, Repr

structure FieldDecl where
  name : String
  type : TypeDecl
  mode : FieldMode
  classification : String
  default : Option String
  description : String
  values : List String
  pattern : Option Pattern
  element : Option String
  children : List FieldDecl

structure SubjectDecl where
  name : String
  literal : Option String
  fields : List String
  values : List String
  optional : Bool
deriving DecidableEq, Repr

structure SchemaDocument where
  id : String
  /-- The name of the level that the document belongs to. -/
  level : String
  description : String
  subject : List SubjectDecl
  fields : List FieldDecl

/-! ## Meaning -/

namespace TypeDecl

def typeOf (field name : String) : Except Error ValueType :=
  match ValueType.ofName? name with
  | some type => .ok type
  | none => .error (.undeclaredType field name)

/-- The types of a field. One name alone may be VARIABLE, which stands for all of them. -/
def toSpec (field : String) : TypeDecl → Except Error TypeSpec
  | .one name =>
    if Text.sameLetters (Text.trim name) "VARIABLE" then .ok .variable
    else (typeOf field name).map fun type => .oneOf [type]
  | .many [] => .error (.emptyTypeList field)
  | .many names => (names.mapM (typeOf field)).map .oneOf

end TypeDecl

/-- The default of a specification has to be a value of its type. -/
def FieldSpec.checkDefault (s : FieldSpec) : Except Error FieldSpec :=
  match s.defaultField with
  | .ok _ => .ok s
  | .error cause => .error (.invalidDefault s.name cause)

mutual

/-- The specification that a declaration stands for. Only control fields have children. -/
def FieldDecl.toSpec : FieldDecl → Except Error FieldSpec
  | ⟨name, type, mode, classification, default, description, values, pattern, element, children⟩ =>
    if !children.isEmpty ∧ mode ≠ .control then .error (.childrenOutsideControl name)
    else do
      let type ← type.toSpec name
      let children ← FieldDecl.toSpecs children
      FieldSpec.checkDefault
        { name, type, mode, classification, default, description, pattern, element, children,
          constraints := values.map Constraint.ofText }

def FieldDecl.toSpecs : List FieldDecl → Except Error (List FieldSpec)
  | [] => .ok []
  | d :: ds => do
    let s ← d.toSpec
    let rest ← FieldDecl.toSpecs ds
    return s :: rest

end

/-- A literal is complete; else fields bind the element, and without any its values count. -/
def SubjectDecl.toElement (d : SubjectDecl) : Except Error SubjectElement :=
  match d.literal, d.fields with
  | some _, _ :: _ => .error (.literalWithFields d.name)
  | some text, [] => .ok ⟨d.name, .literal text, d.optional⟩
  | none, [] => .ok ⟨d.name, .variable d.values, d.optional⟩
  | none, names => .ok ⟨d.name, .field names, d.optional⟩

namespace SchemaDocument

def isHeader (d : SchemaDocument) : Bool := d.id == headerId

def fieldSpecs (d : SchemaDocument) : Except Error (List FieldSpec) := FieldDecl.toSpecs d.fields

def subjectElements (d : SchemaDocument) : Except Error (List SubjectElement) :=
  d.subject.mapM SubjectDecl.toElement

end SchemaDocument

/-! ## Reading -/

def TypeDecl.ofValue? : Toml.Value → Option TypeDecl
  | .string s => some (.one s)
  | v => (v.list? (·.string?)).map .many

def SubjectDecl.ofValue? (v : Toml.Value) : Option SubjectDecl := do
  match ← Toml.record? ["name", "literal", "fields", "values", "optional"] 2 v with
  | [name, literal, fields, values, isOptional] =>
    return {
      name := ← Toml.required? (·.string?) name
      literal := ← Toml.optional? (·.string?) literal
      fields := ← Toml.default? [] (·.list? (·.string?)) fields
      values := ← Toml.default? [] (·.list? (·.string?)) values
      optional := ← Toml.default? false (·.bool?) isOptional }
  | _ => none

namespace FieldDecl

def keys : List String :=
  ["name", "type", "mode", "classification", "default", "description", "values", "pattern",
    "element", "children"]

/-- A declaration from its members, with the children already read. -/
def ofParts? (parts : List (Option Toml.Value)) (children : List FieldDecl) : Option FieldDecl :=
  match parts with
  | [name, type, mode, classification, default, description, values, pattern, element, _] => do
    return {
      name := ← Toml.required? (·.string?) name
      type := ← Toml.required? TypeDecl.ofValue? type
      mode := ← Toml.required? (·.word? FieldMode.all FieldMode.word) mode
      classification := ← Toml.default? "" (·.string?) classification
      default := ← Toml.optional? (·.string?) default
      description := ← Toml.default? "" (·.string?) description
      values := ← Toml.default? [] (·.list? (·.string?)) values
      pattern := ← Toml.optional? (·.word? Pattern.all Pattern.word) pattern
      element := ← Toml.optional? (·.string?) element
      children }
  | _ => none

def ofValue? (v : Toml.Value) : Option FieldDecl :=
  match _hr : Toml.record? keys 9 v with
  | none => none
  | some parts =>
    match _hc : parts.getLast? with
    | some (some (.array _ items)) =>
      let children? := items.attach.mapM fun (item : { v // v ∈ items }) => ofValue? item.val
      children?.bind (ofParts? parts)
    | some none => ofParts? parts []
    | _ => none
termination_by sizeOf v
decreasing_by
  have h1 := Toml.sizeOf_record?_lt _hr (List.mem_of_getLast? _hc)
  have h2 := List.sizeOf_lt_of_mem item.property
  simp only [Toml.Value.array.sizeOf_spec] at h1
  omega

end FieldDecl

namespace SchemaDocument

def ofMembers? (ms : Toml.Members) : Option SchemaDocument := do
  match ← Toml.Members.take? ["id", "level", "description", "subject", "fields"] ms with
  | [id, level, description, subject, fields] =>
    return {
      id := ← Toml.required? (·.string?) id
      level := ← Toml.required? (·.string?) level
      description := ← Toml.default? "" (·.string?) description
      subject := ← Toml.default? [] (·.list? SubjectDecl.ofValue?) subject
      fields := ← Toml.default? [] (·.list? FieldDecl.ofValue?) fields }
  | _ => none

/-- The document of a text; errors name it. -/
def ofText (name text : String) : Except Error SchemaDocument :=
  match (Toml.parse? text).bind ofMembers? with
  | some document => .ok document
  | none => .error (.malformedDocument name)

end SchemaDocument

end BusCompliance
