import BusCompliance.Proofs.Compliance.Fields
import BusCompliance.Proofs.Template.Default
import BusCompliance.Schema.Document

/-!
# Field declarations

A document declares a forest of fields, and each declaration stands for one specification. Either
every declaration of the forest has a meaning, however deep it stands, or the error says what is
wrong with one of them.
-/

namespace BusCompliance

/-- An item of a forest, at any depth. -/
inductive Within {α : Type} (children : α → List α) : List α → α → Prop
  | root {xs : List α} {x : α} (hx : x ∈ xs) : Within children xs x
  | inside {xs : List α} {x y : α} (hx : x ∈ xs) (hy : Within children (children x) y) :
      Within children xs y

theorem Within.cons {α : Type} {children : α → List α} {xs : List α} {y : α}
    (h : Within children xs y) (x : α) : Within children (x :: xs) y := by
  cases h with
  | root hy => exact .root (List.mem_cons_of_mem x hy)
  | inside hz hy => exact .inside (List.mem_cons_of_mem x hz) hy

/-! ## Types -/

theorem TypeSpec.single?_oneOf_iff {types : List ValueType} {type : ValueType} :
    (oneOf types).single? = some type ↔ types = [type] := by
  unfold single?
  split
  · rename_i htypes
    cases htypes
    simp
  · rename_i hnot
    refine iff_of_false nofun ?_
    rintro rfl
    exact hnot type rfl

namespace TypeDecl

variable {t : TypeDecl} {spec : TypeSpec} {field name : String} {type : ValueType} {e : Error}

/-- The names that have to be names of types. VARIABLE is none of them where it stands alone. -/
def names : TypeDecl → List String
  | .one name => if Text.sameLetters (Text.trim name) "VARIABLE" then [] else [name]
  | .many names => names

/-- All types, or those that the names stand for, in order. -/
inductive Denotes : TypeDecl → TypeSpec → Prop
  | all {name : String} (hname : Text.sameLetters (Text.trim name) "VARIABLE" = true) :
      Denotes (.one name) .variable
  | oneOf {t : TypeDecl} {types : List ValueType} (hnames : t.names ≠ [])
      (htypes : List.Forall₂ (fun name type => ValueType.ofName? name = some type) t.names types) :
      Denotes t (.oneOf types)

/-- What is wrong with the types of a field, and the error that says so. -/
inductive Fault (field : String) : TypeDecl → Error → Prop
  | unknown {t : TypeDecl} {name : String} (hname : name ∈ t.names)
      (hnone : ValueType.ofName? name = none) : Fault field t (.undeclaredType field name)
  | empty : Fault field (.many []) (.emptyTypeList field)

/-- There is one name, and it stands for the type. -/
def IsSingle (t : TypeDecl) (type : ValueType) : Prop :=
  ∃ name, t.names = [name] ∧ ValueType.ofName? name = some type

theorem names_eq_nil_iff : t.names = [] ↔
    t = .many [] ∨ ∃ name, t = .one name ∧ Text.sameLetters (Text.trim name) "VARIABLE" = true := by
  unfold names
  cases t with
  | one name => simp
  | many names => simp

theorem typeOf_eq_ok_iff :
    typeOf field name = .ok type ↔ ValueType.ofName? name = some type := by
  unfold typeOf
  cases ValueType.ofName? name <;> simp

theorem typeOf_eq_error_iff : typeOf field name = .error e ↔
    ValueType.ofName? name = none ∧ e = .undeclaredType field name := by
  unfold typeOf
  cases ValueType.ofName? name <;> simp [eq_comm]

theorem names_one : (one name).names =
    if Text.sameLetters (Text.trim name) "VARIABLE" then [] else [name] :=
  rfl

theorem toSpec_one : (one name).toSpec field =
    if Text.sameLetters (Text.trim name) "VARIABLE" then .ok .variable
    else (typeOf field name).map fun type => .oneOf [type] :=
  rfl

/-- One name is read as a list of one. -/
theorem toSpec_of_names (hnames : t.names ≠ []) :
    t.toSpec field = (t.names.mapM (typeOf field)).map .oneOf := by
  cases t with
  | one name =>
    have hname : ¬Text.sameLetters (Text.trim name) "VARIABLE" = true :=
      fun h => hnames (names_eq_nil_iff.mpr (.inr ⟨name, rfl, h⟩))
    rw [toSpec_one, names_one, if_neg hname, if_neg hname, List.mapM_cons, List.mapM_nil]
    cases typeOf field name with
    | error e => rfl
    | ok type => rfl
  | many names =>
    cases names with
    | nil => exact absurd rfl hnames
    | cons name rest => rfl

theorem toSpec_eq_ok_iff : t.toSpec field = .ok spec ↔ t.Denotes spec := by
  constructor
  · intro h
    by_cases hnames : t.names = []
    · rcases names_eq_nil_iff.mp hnames with rfl | ⟨name, rfl, hname⟩
      · cases h
      · rw [toSpec_one, if_pos hname] at h
        cases h
        exact .all hname
    · rw [toSpec_of_names hnames, map_eq_ok_iff] at h
      obtain ⟨types, htypes, rfl⟩ := h
      simp only [mapM_eq_ok_iff, typeOf_eq_ok_iff] at htypes
      exact .oneOf hnames htypes
  · rintro (hname | ⟨hnames, htypes⟩)
    · rw [toSpec_one, if_pos hname]
    · rw [toSpec_of_names hnames, map_eq_ok_iff]
      refine ⟨_, ?_, rfl⟩
      simpa only [mapM_eq_ok_iff, typeOf_eq_ok_iff] using htypes

theorem fault_of_toSpec (h : t.toSpec field = .error e) : t.Fault field e := by
  by_cases hnames : t.names = []
  · rcases names_eq_nil_iff.mp hnames with rfl | ⟨name, rfl, hname⟩
    · cases h
      exact .empty
    · rw [toSpec_one, if_pos hname] at h
      cases h
  · rw [toSpec_of_names hnames, map_eq_error_iff] at h
    obtain ⟨name, hname, herror⟩ := exists_of_mapM_eq_error h
    obtain ⟨hnone, rfl⟩ := typeOf_eq_error_iff.mp herror
    exact .unknown hname hnone

theorem Denotes.not_fault (h : t.Denotes spec) : ¬t.Fault field e := by
  intro hfault
  have hspec : t.toSpec field = .ok spec := toSpec_eq_ok_iff.mpr h
  cases hfault with
  | @unknown _ name hname hnone =>
    rw [toSpec_of_names (List.ne_nil_of_mem hname), map_eq_ok_iff] at hspec
    obtain ⟨types, htypes, -⟩ := hspec
    obtain ⟨type, htype⟩ := exists_mapM_iff.mp ⟨types, htypes⟩ name hname
    rw [typeOf_eq_ok_iff, hnone] at htype
    cases htype
  | empty => cases hspec

theorem Denotes.cases (h : t.Denotes spec) :
    spec = .variable ∨ ∃ types, spec = .oneOf types ∧ types ≠ [] := by
  cases h with
  | all _ => exact .inl rfl
  | @oneOf t types hnames htypes =>
    refine .inr ⟨types, rfl, ?_⟩
    rintro rfl
    exact hnames (List.forall₂_nil_right_iff.mp htypes)

theorem Denotes.single?_eq_some_iff (h : t.Denotes spec) :
    spec.single? = some type ↔ t.IsSingle type := by
  unfold IsSingle
  cases h with
  | all hname =>
    rw [names_eq_nil_iff.mpr (.inr ⟨_, rfl, hname⟩)]
    simp [TypeSpec.single?]
  | @oneOf t types _ htypes =>
    rw [TypeSpec.single?_oneOf_iff]
    constructor
    · rintro rfl
      obtain ⟨name, rest, htype, hrest, hnames⟩ := List.forall₂_cons_right_iff.mp htypes
      cases hrest
      exact ⟨name, hnames, htype⟩
    · rintro ⟨name, hnames, htype⟩
      rw [hnames] at htypes
      obtain ⟨other, rest, hother, hrest, rfl⟩ := List.forall₂_cons_left_iff.mp htypes
      cases hrest
      rw [htype, Option.some.injEq] at hother
      rw [hother]

end TypeDecl

/-! ## One declaration -/

namespace FieldSpec

variable {s t : FieldSpec} {e : Error}

/-- What the check of messages and the creation of messages rely on. -/
structure IsWellFormed (s : FieldSpec) : Prop where
  control : s.children ≠ [] → s.mode = .control
  group : s.isGroup = true ↔ s.children ≠ []
  types : s.type = .variable ∨ ∃ types, s.type = .oneOf types ∧ types ≠ []
  stampable : s.IsStampable

theorem checkDefault_eq_ok_iff : s.checkDefault = .ok t ↔ s.IsStampable ∧ s = t := by
  unfold checkDefault IsStampable
  cases s.defaultField <;> simp

theorem checkDefault_eq_error_iff : s.checkDefault = .error e ↔
    ∃ cause, s.defaultField = .error cause ∧ .invalidDefault s.name cause = e := by
  unfold checkDefault
  cases s.defaultField <;> simp

end FieldSpec

namespace FieldDecl

variable {d n : FieldDecl} {s : FieldSpec} {ds : List FieldDecl} {specs : List FieldSpec}
  {types : TypeSpec} {type : ValueType} {text : String} {cause e : Error}

/-- The specification of a declaration with its types and its children. -/
def spec (d : FieldDecl) (types : TypeSpec) (children : List FieldSpec) : FieldSpec :=
  { name := d.name, type := types, mode := d.mode, classification := d.classification,
    default := d.default, description := d.description,
    constraints := d.values.map Constraint.ofText, pattern := d.pattern, element := d.element,
    children }

theorem toSpec_eq (d : FieldDecl) : d.toSpec =
    if d.children ≠ [] ∧ d.mode ≠ .control then .error (.childrenOutsideControl d.name)
    else d.type.toSpec d.name >>= fun types =>
      toSpecs d.children >>= fun specs => (d.spec types specs).checkDefault := by
  cases d
  unfold toSpec
  simp [spec]

/-- The specification says what the declaration says, but for children. -/
structure Describes (d : FieldDecl) (s : FieldSpec) : Prop where
  name : s.name = d.name
  types : d.type.Denotes s.type
  mode : s.mode = d.mode
  classification : s.classification = d.classification
  default : s.default = d.default
  description : s.description = d.description
  constraints : s.constraints = d.values.map Constraint.ofText
  pattern : s.pattern = d.pattern
  element : s.element = d.element

theorem describes_spec (h : d.type.Denotes types) : d.Describes (d.spec types specs) :=
  ⟨rfl, h, rfl, rfl, rfl, rfl, rfl, rfl, rfl⟩

/-- New messages are to get a field of the type, made from the text. -/
structure Stamps (d : FieldDecl) (type : ValueType) (text : String) : Prop where
  field : d.mode ≠ .control
  single : d.type.IsSingle type
  default : d.default = some text

theorem Describes.stamps_iff (h : d.Describes s) : s.Stamps type text ↔ d.Stamps type text := by
  constructor
  · rintro ⟨hmode, hsingle, hdefault⟩
    exact ⟨h.mode ▸ hmode, h.types.single?_eq_some_iff.mp hsingle, h.default ▸ hdefault⟩
  · rintro ⟨hmode, hsingle, hdefault⟩
    exact ⟨h.mode.symm ▸ hmode, h.types.single?_eq_some_iff.mpr hsingle, h.default.trans hdefault⟩

/-- What is wrong with a declaration itself, and the error that says so. -/
inductive Fault (d : FieldDecl) : Error → Prop
  | children (hchildren : d.children ≠ []) (hmode : d.mode ≠ .control) :
      Fault d (.childrenOutsideControl d.name)
  | types {e : Error} (htypes : d.type.Fault d.name e) : Fault d e
  | default {type : ValueType} {text : String} {cause : Error} (hstamps : d.Stamps type text)
      (hread : Value.read type text = .error cause) : Fault d (.invalidDefault d.name cause)
  | name {type : ValueType} {text : String} (hstamps : d.Stamps type text)
      (hblank : Text.allBlank d.name = true) : Fault d (.invalidDefault d.name .blankFieldName)

/-- All that a declaration has to do with its specification, with the children taken as read. -/
theorem of_toSpec (h : d.toSpec = .ok s) : (d.children ≠ [] → d.mode = .control) ∧
    d.Describes s ∧ s.IsStampable ∧ toSpecs d.children = .ok s.children := by
  rw [toSpec_eq] at h
  split at h
  · cases h
  · rename_i hcontrol
    obtain ⟨types, htypes, h⟩ := bind_eq_ok_iff.mp h
    obtain ⟨specs, hspecs, h⟩ := bind_eq_ok_iff.mp h
    obtain ⟨hstampable, rfl⟩ := FieldSpec.checkDefault_eq_ok_iff.mp h
    have hdescribes : d.Describes (d.spec types specs) :=
      describes_spec (TypeDecl.toSpec_eq_ok_iff.mp htypes)
    refine ⟨fun hchildren => ?_, hdescribes, hstampable, hspecs⟩
    by_contra hmode
    exact hcontrol ⟨hchildren, hmode⟩

theorem fault_of_defaultField (hdescribes : d.Describes s) (h : s.defaultField = .error cause) :
    d.Fault (.invalidDefault d.name cause) := by
  obtain ⟨type, text, hstamps, hmade⟩ := FieldSpec.defaultField_eq_error_iff.mp h
  rw [hdescribes.stamps_iff] at hstamps
  rw [hdescribes.name] at hmade
  rcases Field.ofText_eq_error_iff.mp hmade with hread | ⟨-, hblank, rfl⟩
  · exact .default hstamps hread
  · exact .name hstamps hblank

/-- The error of a declaration is that of a fault of its own, or that of its children. -/
theorem fault_of_toSpec (h : d.toSpec = .error e) :
    d.Fault e ∨ toSpecs d.children = .error e := by
  rw [toSpec_eq] at h
  split at h
  · rename_i houtside
    cases h
    exact .inl (.children houtside.1 houtside.2)
  · rcases bind_eq_error_iff.mp h with htypes | ⟨types, htypes, h⟩
    · exact .inl (.types (TypeDecl.fault_of_toSpec htypes))
    · rcases bind_eq_error_iff.mp h with hspecs | ⟨specs, -, h⟩
      · exact .inr hspecs
      · obtain ⟨cause, hcause, rfl⟩ := FieldSpec.checkDefault_eq_error_iff.mp h
        exact .inl (fault_of_defaultField
          (describes_spec (TypeDecl.toSpec_eq_ok_iff.mp htypes)) hcause)

theorem not_fault_of_toSpec (h : d.toSpec = .ok s) : ¬d.Fault e := by
  obtain ⟨hcontrol, hdescribes, hstampable, -⟩ := of_toSpec h
  have hmade {type : ValueType} {text : String} (hstamps : d.Stamps type text) :
      Text.allBlank d.name = false ∧ ∃ value, Value.read type text = .ok value := by
    rw [← hdescribes.name]
    exact FieldSpec.isStampable_iff.mp hstampable type text (hdescribes.stamps_iff.mpr hstamps)
  intro hfault
  cases hfault with
  | children hchildren hmode => exact hmode (hcontrol hchildren)
  | types htypes => exact hdescribes.types.not_fault htypes
  | default hstamps hread =>
    obtain ⟨-, value, hvalue⟩ := hmade hstamps
    rw [hread] at hvalue
    cases hvalue
  | name hstamps hblank =>
    rw [(hmade hstamps).1] at hblank
    cases hblank

theorem isWellFormed_of_toSpec (h : d.toSpec = .ok s) : s.IsWellFormed := by
  obtain ⟨hcontrol, hdescribes, hstampable, hspecs⟩ := of_toSpec h
  have hmode (hchildren : s.children ≠ []) : s.mode = .control := by
    rw [hdescribes.mode]
    refine hcontrol fun hnone => hchildren ?_
    rw [hnone] at hspecs
    exact (Except.ok.inj hspecs).symm
  exact ⟨hmode, isGroup_iff.trans (and_iff_right_of_imp hmode), hdescribes.types.cases, hstampable⟩

/-! ## All declarations -/

theorem toSpecs_eq_mapM (ds : List FieldDecl) : toSpecs ds = ds.mapM toSpec := by
  induction ds with
  | nil => rfl
  | cons d ds ih =>
    unfold toSpecs
    rw [List.mapM_cons, ih]

/-- What holds of a list of declarations because it holds of the children of the first one, and of
the others, holds of every list. -/
@[elab_as_elim]
theorem forest_induction {motive : List FieldDecl → Prop} (nil : motive [])
    (cons : ∀ d ds, motive d.children → motive ds → motive (d :: ds)) : ∀ ds, motive ds
  | [] => nil
  -- The first declaration is opened, so that its children are a part of the list.
  | ⟨name, type, mode, classification, default, description, values, pattern, element, children⟩ ::
      ds =>
    cons _ ds (forest_induction nil cons children) (forest_induction nil cons ds)

/-- The specification says what the declaration says, and so do its children, one for each child
of the declaration and in their order. -/
inductive Denotes : FieldDecl → FieldSpec → Prop
  | intro {d : FieldDecl} {s : FieldSpec} (describes : d.Describes s)
      (children : List.Forall₂ Denotes d.children s.children) : Denotes d s

theorem denotes_of_toSpecs (h : toSpecs ds = .ok specs) : List.Forall₂ Denotes ds specs := by
  induction ds using forest_induction generalizing specs with
  | nil =>
    cases h
    exact .nil
  | cons d ds hchildren hds =>
    obtain ⟨s, hs, h⟩ := bind_eq_ok_iff.mp h
    obtain ⟨rest, hrest, h⟩ := bind_eq_ok_iff.mp h
    cases h
    obtain ⟨-, hdescribes, -, hspecs⟩ := of_toSpec hs
    exact .cons (.intro hdescribes (hchildren hspecs)) (hds hrest)

theorem fault_of_toSpecs (h : toSpecs ds = .error e) :
    ∃ n, Within FieldDecl.children ds n ∧ n.Fault e := by
  induction ds using forest_induction with
  | nil => cases h
  | cons d ds hchildren hds =>
    -- The first declaration fails, or it is read and the others fail.
    rcases bind_eq_error_iff.mp h with h | ⟨s, -, h⟩
    · rcases fault_of_toSpec h with hfault | hspecs
      · exact ⟨d, .root List.mem_cons_self, hfault⟩
      · obtain ⟨n, hn, hfault⟩ := hchildren hspecs
        exact ⟨n, .inside List.mem_cons_self hn, hfault⟩
    · rcases bind_eq_error_iff.mp h with hrest | ⟨rest, -, h⟩
      · obtain ⟨n, hn, hfault⟩ := hds hrest
        exact ⟨n, hn.cons d, hfault⟩
      · cases h

theorem exists_toSpec_of_mem (h : toSpecs ds = .ok specs) (hd : d ∈ ds) :
    ∃ s, d.toSpec = .ok s := by
  rw [toSpecs_eq_mapM] at h
  exact exists_mapM_iff.mp ⟨specs, h⟩ d hd

theorem exists_declaration_of_mem (h : toSpecs ds = .ok specs) (hs : s ∈ specs) :
    ∃ d : FieldDecl, d.toSpec = .ok s := by
  rw [toSpecs_eq_mapM] at h
  obtain ⟨d, -, hd⟩ := (mem_iff_of_mapM h).mp hs
  exact ⟨d, hd⟩

theorem not_fault_of_toSpecs (h : toSpecs ds = .ok specs) (hn : Within FieldDecl.children ds n) :
    ¬n.Fault e := by
  -- Down to the declaration, the children on every level have specifications.
  induction hn generalizing specs with
  | root hd =>
    obtain ⟨s, hs⟩ := exists_toSpec_of_mem h hd
    exact not_fault_of_toSpec hs
  | inside hd _ ih =>
    obtain ⟨s, hs⟩ := exists_toSpec_of_mem h hd
    obtain ⟨-, -, -, hspecs⟩ := of_toSpec hs
    exact ih hspecs

theorem isWellFormed_of_toSpecs (h : toSpecs ds = .ok specs)
    (hs : Within FieldSpec.children specs s) : s.IsWellFormed := by
  induction hs generalizing ds with
  | root hs =>
    obtain ⟨d, hd⟩ := exists_declaration_of_mem h hs
    exact isWellFormed_of_toSpec hd
  | inside hs _ ih =>
    obtain ⟨d, hd⟩ := exists_declaration_of_mem h hs
    obtain ⟨-, -, -, hspecs⟩ := of_toSpec hd
    exact ih hspecs

end FieldDecl

namespace SchemaDocument

variable {d : SchemaDocument} {specs : List FieldSpec}

theorem names_fieldSpecs (h : d.fieldSpecs = .ok specs) :
    specs.map (·.name) = d.fields.map (·.name) := by
  have hdenotes := FieldDecl.denotes_of_toSpecs h
  clear h
  generalize d.fields = ds at hdenotes
  induction hdenotes with
  | nil => rfl
  | cons hs _ ih =>
    obtain ⟨hdescribes, -⟩ := hs
    rw [List.map_cons, List.map_cons, hdescribes.name, ih]

theorem isStampable_fieldSpecs (h : d.fieldSpecs = .ok specs) : ∀ s ∈ specs, s.IsStampable :=
  fun _ hs => (FieldDecl.isWellFormed_of_toSpecs h (.root hs)).stampable

/-- The specifications of a document stand for its declarations, and at every depth they are well
formed. There are none if and only if a declaration at some depth has a fault. -/
theorem fieldSpecs_wellFormed (d : SchemaDocument) :
    (∀ specs, d.fieldSpecs = .ok specs → List.Forall₂ FieldDecl.Denotes d.fields specs ∧
      ∀ s, Within FieldSpec.children specs s → s.IsWellFormed) ∧
    ((∃ e, d.fieldSpecs = .error e) ↔
      ∃ n, Within FieldDecl.children d.fields n ∧ ∃ e, n.Fault e) := by
  refine ⟨fun specs h => ⟨FieldDecl.denotes_of_toSpecs h, fun s hs => ?_⟩, ?_, ?_⟩
  · exact FieldDecl.isWellFormed_of_toSpecs h hs
  · rintro ⟨e, h⟩
    obtain ⟨n, hn, hfault⟩ := FieldDecl.fault_of_toSpecs h
    exact ⟨n, hn, e, hfault⟩
  · rintro ⟨n, hn, e, hfault⟩
    cases h : d.fieldSpecs with
    | error cause => exact ⟨cause, rfl⟩
    | ok specs => exact absurd hfault (FieldDecl.not_fault_of_toSpecs h hn)

/-- A number of one byte, with a default. -/
def sizeDeclaration (default : String) : FieldDecl :=
  ⟨"SIZE", .many ["u8"], .required, "", some default, "", [], none, none, []⟩

/-- Plans with steps that have a size. -/
def plansDocument (default : String) : SchemaDocument :=
  ⟨"REQ.PLANS", "C2MS", "", [],
    [⟨"PLANS", .one "variable", .control, "", none, "", [], none, some "PLAN",
      [⟨"STEPS", .many ["U8", "U16"], .control, "", none, "", [], none, some "STEP",
        [sizeDeclaration default]⟩]⟩]⟩

theorem within_plansDocument (default : String) :
    Within FieldDecl.children (plansDocument default).fields (sizeDeclaration default) :=
  .inside List.mem_cons_self (.inside List.mem_cons_self (.root List.mem_cons_self))

theorem fault_sizeDeclaration : (sizeDeclaration "256").Fault
    (.invalidDefault "SIZE" (.unreadableValue "256" (.integer .u8))) := by
  have htype : ValueType.ofName? "u8" = some (.integer .u8) := by decide +kernel
  have hread : Value.read (.integer .u8) "256" =
      .error (.unreadableValue "256" (.integer .u8)) := by decide +kernel
  exact .default ⟨nofun, ⟨"u8", rfl, htype⟩, rfl⟩ hread

theorem exists_fieldSpecs_plans : ∃ specs, (plansDocument "255").fieldSpecs = .ok specs ∧
    decide ((specs.map fun s => s.children.map fun s => s.children.map (·.name)) =
      [[["SIZE"]]]) = true :=
  exists_of_toOption_any (by decide +kernel)

/-- The size is well formed with a default that fits into one byte. With one that does not, the
document has no specifications. -/
theorem fieldSpecs_wellFormed_plans :
    (∃ specs s, (plansDocument "255").fieldSpecs = .ok specs ∧
      Within FieldSpec.children specs s ∧ s.name = "SIZE" ∧ s.IsWellFormed) ∧
    ∃ e, (plansDocument "256").fieldSpecs = .error e := by
  constructor
  · obtain ⟨specs, hspecs, hnames⟩ := exists_fieldSpecs_plans
    obtain ⟨plans, rfl, hplans⟩ := List.map_eq_singleton_iff.mp (of_decide_eq_true hnames)
    obtain ⟨steps, hsteps, hsizes⟩ := List.map_eq_singleton_iff.mp hplans
    obtain ⟨size, hsize, hname⟩ := List.map_eq_singleton_iff.mp hsizes
    have hwithin : Within FieldSpec.children [plans] size :=
      .inside List.mem_cons_self (.inside (hsteps ▸ List.mem_cons_self)
        (.root (hsize ▸ List.mem_cons_self)))
    exact ⟨[plans], size, hspecs, hwithin, hname,
      ((fieldSpecs_wellFormed (plansDocument "255")).1 _ hspecs).2 size hwithin⟩
  · exact (fieldSpecs_wellFormed (plansDocument "256")).2.mpr
      ⟨_, within_plansDocument "256", _, fault_sizeDeclaration⟩

end SchemaDocument

end BusCompliance
