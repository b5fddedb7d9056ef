import BusCompliance.Proofs.Compliance.BuiltSubject
import BusCompliance.Proofs.Registry.Loaded
import BusCompliance.Registry.Deduction

/-!
# Ids that subjects show

The values of the fields that make up an id stand in the subject that is built for a message, at the
places of the header elements that are bound to them. If no dot gets in between, they are found
there again, and make up the id that the fields do, in capitals.
-/

namespace BusCompliance

/-- The element is bound to the field, maybe among others. -/
def SubjectElement.Lists (e : SubjectElement) (name : String) : Prop :=
  ∃ names, e.rule = .field names ∧ name ∈ names

/-- What the element has for a message holds no dot. -/
def SubjectElement.IsUndotted (m : Message) (e : SubjectElement) : Prop :=
  match e.rule with
  | .literal text => '.' ∉ text.toList
  | .field names => ∀ f, Template.boundField? m names = some f → '.' ∉ f.text.toList
  | .variable _ => True

variable {m : Message} {e : SubjectElement} {before elements own : List SubjectElement}
  {name : String} {names : List String} {f : Field}

theorem SubjectElement.IsUndotted.written (h : e.IsUndotted m) : '.' ∉ (e.written m).toList := by
  have hfill : '.' ∉ fillToken.toList := by decide
  unfold IsUndotted at h
  unfold SubjectElement.written Template.token?
  rcases hrule : e.rule with text | names | values
  · rw [hrule] at h
    exact h
  · rw [hrule] at h
    cases hbound : Template.boundField? m names with
    | none => simpa [hbound] using hfill
    | some f =>
      simp only [hbound, Option.map_some, Option.getD_some, Text.dot_mem_upper_iff]
      exact h f hbound
  · exact hfill

namespace Registry

variable {source : Source} {version : Nat} {level : SchemaLevel} {r : Registry} {id : String}
  {t : Template} {header : Header} {d : Definition}

/-! ## The place of a field -/

/-- Behind these elements stands the first one that lists the field, and it lists no other. -/
structure IsPlacedBehind (elements : List SubjectElement) (name : String)
    (before : List SubjectElement) : Prop where
  bound : ∃ e names behind, elements = before ++ e :: behind ∧ e.rule = .field names ∧
    name ∈ names ∧ ∀ other ∈ names, other = name
  first : ∀ e ∈ before, ¬e.Lists name

theorem IsPlacedBehind.elementIndex?_eq (h : IsPlacedBehind elements name before) :
    elementIndex? elements name = some before.length := by
  obtain ⟨⟨e, names, behind, rfl, hrule, hname, -⟩, hfirst⟩ := h
  unfold elementIndex?
  rw [List.findIdx?_append, List.findIdx?_eq_none_iff.mpr, List.findIdx?_cons]
  · simp [hrule, hname]
  · intro x hx
    split
    · rename_i names hrule
      rw [List.contains_eq_mem, decide_eq_false_iff_not]
      exact fun hmem => hfirst x hx ⟨names, hrule, hmem⟩
    · rfl

theorem token?_of_only (hrule : e.rule = .field names) (hname : name ∈ names)
    (honly : ∀ other ∈ names, other = name) (hfield : m.field? name = some f) :
    Template.token? m e = some (Text.upper f.text) := by
  have hbound : Template.boundField? m names = some f := by
    obtain ⟨first, rest, rfl⟩ := List.exists_cons_of_ne_nil (List.ne_nil_of_mem hname)
    unfold Template.boundField?
    rw [honly first List.mem_cons_self, List.findSome?_cons, hfield]
  unfold Template.token?
  simp only [hrule, hbound, Option.map_some]

/-- The subject of a message shows the field: no dot stands before its value or in it. -/
structure Shows (m : Message) (elements : List SubjectElement) (name : String) (f : Field) :
    Prop where
  present : m.field? name = some f
  filled : f.text ≠ ""
  undotted : '.' ∉ f.text.toList
  placed : ∃ before, IsPlacedBehind elements name before ∧ ∀ e ∈ before, e.IsUndotted m

theorem Shows.tokenOf?_eq (h : Shows m elements name f) (own : List SubjectElement) :
    tokenOf? elements (Text.segments (Text.join (Template.tokens m (elements ++ own)))) name =
      some (Text.upper f.text) := by
  obtain ⟨before, hplaced, hbefore⟩ := h.placed
  have hindex := hplaced.elementIndex?_eq
  obtain ⟨e, names, behind, rfl, hrule, hname, honly⟩ := hplaced.bound
  have hundotted : ∀ part ∈ before.map (·.written m) ++ [Text.upper f.text],
      '.' ∉ part.toList := by
    refine forall_mem_concat ?_ (mt Text.dot_mem_upper_iff.mp h.undotted)
    rw [List.forall_mem_map]
    exact fun x hx => (hbefore x hx).written
  have htokens : Template.tokens m (before ++ e :: behind ++ own) =
      before.map (·.written m) ++ [Text.upper f.text] ++ Template.tokens m (behind ++ own) := by
    rw [List.append_assoc, List.cons_append,
      tokens_append (token?_of_only hrule hname honly h.present), List.append_assoc,
      List.singleton_append]
  -- what stands behind may hold dots, but moves no segment up to the place of the field
  obtain ⟨rest, hsegments⟩ := Text.prefix_segments_join hundotted
    (Template.tokens m (behind ++ own))
  have hat : (before.map (·.written m) ++ [Text.upper f.text] ++ rest)[before.length]? =
      some (Text.upper f.text) := by simp
  have hfilled : (Text.upper f.text).isEmpty = false :=
    String.isEmpty_eq_false_iff.mpr (mt Text.upper_eq_empty_iff.mp h.filled)
  unfold tokenOf?
  rw [hindex, htokens, ← hsegments, Option.bind_eq_bind, Option.bind_some, hat,
    Option.bind_eq_bind, Option.bind_some, hfilled]
  rfl

/-! ## The id -/

theorem LoadedFrom.subject_eq {directory : Directory} {names : List String} {ps : List Placed}
    (h : LoadedFrom source version level directory names ps r)
    (ht : r.templates.get? id = some t) (hheader : r.activeHeader? = some header) :
    ∃ own, t.subject = header.subject ++ own := by
  obtain ⟨p, -, hmade⟩ := h.get?_templates_iff.mp ht
  obtain ⟨_, own, _, -, -, -, rfl⟩ := templateOf_eq_ok_iff.mp hmade
  rw [hheader]
  exact ⟨own, rfl⟩

theorem exists_values (hshows : ∀ name ∈ names, ∃ f, Shows m elements name f)
    (own : List SubjectElement) :
    ∃ values, names.mapM (fun name => (m.field? name).map (·.text)) = some values ∧
      names.mapM (tokenOf? elements
        (Text.segments (Text.join (Template.tokens m (elements ++ own))))) =
          some (values.map Text.upper) := by
  induction names with
  | nil => exact ⟨[], rfl, rfl⟩
  | cons name names ih =>
    obtain ⟨⟨f, hf⟩, hnames⟩ := List.forall_mem_cons.mp hshows
    obtain ⟨values, hvalues, htokens⟩ := ih hnames
    refine ⟨f.text :: values, ?_, ?_⟩
    · rw [List.mapM_cons, hf.present, hvalues]
      rfl
    · rw [List.mapM_cons, hf.tokenOf?_eq own, htokens]
      rfl

/-- Where the subject that a template builds shows the fields that make up ids, it gives the id that
their values make up in capitals. -/
theorem deduceFromSubject_buildSubject (hload : (load source version level).outcome = .ok r)
    (ht : r.templates.get? id = some t) (hheader : r.activeHeader? = some header)
    (hd : r.definition? headerId r.level.value = some d) (hne : d.fields ≠ [])
    (hshows : ∀ name ∈ d.fields, ∃ f, Shows m header.subject name f) :
    ∃ values, d.fields.mapM (fun name => (m.field? name).map (·.text)) = some values ∧
      r.deduceFromSubject (t.buildSubject m) = some (Text.join (values.map Text.upper)) := by
  obtain ⟨directory, names, ps, h⟩ := exists_loadedFrom hload
  obtain ⟨own, hsubject⟩ := h.subject_eq ht hheader
  obtain ⟨values, hvalues, htokens⟩ := exists_values hshows own
  refine ⟨values, hvalues, ?_⟩
  have hfilled : (values.map Text.upper).isEmpty = false := by
    have hlength := (mapM_eq_some_iff.mp hvalues).length_eq
    rw [List.isEmpty_eq_false_iff, ← List.length_pos_iff, List.length_map, ← hlength]
    exact List.length_pos_iff.mpr hne
  unfold deduceFromSubject Template.buildSubject
  simp only [hd, hheader, hsubject, htokens, Option.bind_eq_bind, Option.bind_some, hfilled]
  rfl

/-- A source whose ids are made up of K and T, which stand in subjects in the other order with an
element without a token between them. The subjects of the schema A end in a text with a dot. -/
def shownSource : Source := .inline
  ("levels=[\x7blevel=0,name=\"L\"\x7d]\n" ++
    "schemas=[\x7bid=\"HEADER\",level=0,definition=[\"K\",\"T\"]\x7d,\x7bid=\"A\",level=0\x7d]")
  [("a", "id=\"A\"\nlevel=\"L\"\nsubject=[\x7bname=\"D\",literal=\"x.y\"\x7d]"),
    ("h", "id=\"HEADER\"\nlevel=\"L\"\nsubject=[\x7bname=\"T\",fields=[\"T\"]\x7d," ++
      "\x7bname=\"R\",optional=true\x7d,\x7bname=\"K\",fields=[\"K\"]\x7d]")]

def shownElements : List SubjectElement :=
  [⟨"T", .field ["T"], false⟩, ⟨"R", .variable [], true⟩, ⟨"K", .field ["K"], false⟩]

def shown : Message := (messageOf "a").add ⟨"K", .string "b", by decide⟩

theorem field?_shown : shown.field? "T" = some ⟨"T", .string "a", by decide⟩ ∧
    shown.field? "K" = some ⟨"K", .string "b", by decide⟩ := by
  decide +kernel

theorem shows_shown : ∀ name ∈ ["K", "T"], ∃ f, Shows shown shownElements name f := by
  obtain ⟨hT, hK⟩ := field?_shown
  have hbefore : shownElements.take 2 =
      [⟨"T", .field ["T"], false⟩, ⟨"R", .variable [], true⟩] := rfl
  rw [List.forall_mem_cons, List.forall_mem_singleton]
  refine ⟨⟨_, hK, by decide, by decide, shownElements.take 2, ⟨?_, ?_⟩, ?_⟩,
    ⟨_, hT, by decide, by decide, [], ⟨?_, nofun⟩, nofun⟩⟩
  · exact ⟨_, ["K"], [], rfl, rfl, by decide, by decide⟩
  · rw [hbefore, List.forall_mem_cons, List.forall_mem_singleton]
    constructor
    · rintro ⟨names, ⟨⟩, hname⟩
      exact absurd hname (by decide)
    · rintro ⟨names, ⟨⟩, -⟩
  · rw [hbefore, List.forall_mem_cons, List.forall_mem_singleton]
    refine ⟨fun f hf => ?_, trivial⟩
    unfold Template.boundField? at hf
    rw [List.findSome?_cons, hT] at hf
    cases hf
    decide
  · exact ⟨_, ["T"], _, rfl, rfl, by decide, by decide⟩

theorem load_shownSource : ∃ r, (load shownSource 201900 .base).outcome = .ok r ∧
    decide ((r.activeHeader?.map (·.subject)) = some shownElements ∧ "A" ∈ r.schemaIds ∧
      r.definition? headerId r.level.value = some ⟨headerId, 0, ["K", "T"]⟩ ∧
      (r.templates.get? "A").map (·.buildSubject shown) = some "A.FILL.B.x.y") = true :=
  exists_load (by decide +kernel)

/-- The subject A.FILL.B.x.y gives the id B.A. -/
theorem deduceFromSubject_buildSubject_shown : ∃ r t header d,
    (load shownSource 201900 .base).outcome = .ok r ∧ r.templates.get? "A" = some t ∧
    r.activeHeader? = some header ∧ r.definition? headerId r.level.value = some d ∧
    d.fields ≠ [] ∧ (∀ name ∈ d.fields, ∃ f, Shows shown header.subject name f) ∧
    t.buildSubject shown = "A.FILL.B.x.y" ∧
    r.deduceFromSubject (t.buildSubject shown) = some "B.A" := by
  obtain ⟨r, hload, hfacts⟩ := load_shownSource
  obtain ⟨hsubject, -, hd, hbuilt⟩ := of_decide_eq_true hfacts
  obtain ⟨header, hheader, helements⟩ := Option.map_eq_some_iff.mp hsubject
  obtain ⟨t, ht, hbuilt⟩ := Option.map_eq_some_iff.mp hbuilt
  have hshows : ∀ name ∈ ["K", "T"], ∃ f, Shows shown header.subject name f := by
    rw [helements]
    exact shows_shown
  obtain ⟨values, hvalues, hdeduced⟩ :=
    deduceFromSubject_buildSubject hload ht hheader hd (by decide) hshows
  refine ⟨r, t, header, _, hload, ht, hheader, hd, by decide, hshows, hbuilt, ?_⟩
  have hlisted : ["K", "T"].mapM (fun name => (shown.field? name).map (·.text)) =
      some ["b", "a"] := by decide +kernel
  cases hvalues.symm.trans hlisted
  rw [hdeduced]
  decide +kernel

end Registry

end BusCompliance
