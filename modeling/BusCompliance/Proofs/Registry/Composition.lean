import BusCompliance.Proofs.Registry.Loaded
import BusCompliance.Proofs.Schema.Declaration

/-!
# What a template is composed of

The fields of a template are those of the header, with the segments of the id as defaults, and over
them the fields of the document. A default that a document declares is a value of its type. Nobody
checks that of a segment.
-/

namespace BusCompliance.Registry

variable {specs : List FieldSpec} {source : Source} {version : Nat} {level : SchemaLevel}
  {r : Registry} {directory : Directory} {ps : List Placed} {p : Placed} {names : List String}
  {t : Template}

/-! ## Segments as defaults -/

theorem setDefault_eq_map (hdistinct : (specs.map (·.name)).Nodup) (name text : String) :
    setDefault specs (name, text) =
      specs.map fun s => s.withDefault (if s.name = name then some text else none) := by
  induction specs with
  | nil => rfl
  | cons s rest ih =>
    obtain ⟨hnew, hrest⟩ := List.nodup_cons.mp hdistinct
    unfold setDefault
    rw [List.map_cons]
    by_cases hname : s.name = name
    · subst hname
      have hkept : (rest.map fun t => t.withDefault (if t.name = s.name then some text else none)) =
          rest := by
        rw [List.map_congr_left (g := id), List.map_id]
        intro t ht
        have hne : t.name ≠ s.name := by
          intro hsame
          exact hnew (List.mem_map.mpr ⟨t, ht, hsame⟩)
        rw [if_neg hne, FieldSpec.withDefault_none, id]
      rw [if_pos rfl, if_pos rfl, hkept]
      rfl
    · rw [if_neg hname, if_neg hname, ih hrest, FieldSpec.withDefault_none]

/-- The last of the texts that are given for a name is its default. -/
theorem foldl_setDefault_eq_map (hdistinct : (specs.map (·.name)).Nodup)
    (texts : List (String × String)) : texts.foldl setDefault specs =
      specs.map fun s => s.withDefault (texts.reverse.lookup s.name) := by
  induction texts using List.reverseRecOn with
  | nil => simp
  | append_singleton texts text ih =>
    obtain ⟨name, text⟩ := text
    have hnames : (specs.map fun s => s.withDefault (texts.reverse.lookup s.name)).map (·.name) =
        specs.map (·.name) := by
      rw [List.map_map]
      rfl
    rw [List.foldl_append, List.foldl_cons, List.foldl_nil, ih, setDefault_eq_map (by rwa [hnames]),
      List.map_map, List.reverse_append]
    refine List.map_congr_left ?_
    intro s _
    by_cases hname : s.name = name
    · simp [hname]
    · simp [hname, List.lookup_cons, beq_eq_false_iff_ne.mpr hname]

/-- The fields that make up the id of a document. -/
def idFields (r : Registry) (p : Placed) : List String :=
  ((r.definition? p.document.id p.level).map (·.fields)).getD []

/-- The segment of the id of a document that a field gets, the last one if there are more. -/
def segmentOf? (r : Registry) (p : Placed) (name : String) : Option String :=
  ((r.idFields p).zip (Text.segments p.document.id)).reverse.lookup name

/-! ## Fields of templates -/

theorem LoadedFrom.isStampable_headerSpecs
    (h : LoadedFrom source version level directory names ps r) :
    ∀ s ∈ r.headerSpecs, s.IsStampable := by
  refine fieldsOf_induction (P := fun specs => ∀ s ∈ specs, s.IsStampable) h.headers ?_ ?_
  · exact fun s hs => absurd hs List.not_mem_nil
  · intro base d specs hspecs hbase s hs
    rcases FieldSpec.mem_of_mem_overlay hs with hs | hs
    · exact SchemaDocument.isStampable_fieldSpecs hspecs s hs
    · exact hbase s hs

/-- The fields of the header, with their segments of the id, and over them those of the document. -/
theorem LoadedFrom.fields_eq (h : LoadedFrom source version level directory names ps r)
    (hmade : templateOf (r.activeHeader?.getD ⟨"", [], []⟩) r.definitions p = .ok t) :
    ∃ own, p.document.fieldSpecs = .ok own ∧ t.fields = FieldSpec.overlay
      (r.headerSpecs.map fun s => s.withDefault (r.segmentOf? p s.name)) own := by
  obtain ⟨-, -, own, hown, hfields⟩ := templateOf_eq_ok hmade
  refine ⟨own, hown, ?_⟩
  obtain ⟨header, hheader⟩ := h.exists_activeHeader
  have hspecs : r.headerSpecs = header.fields := by
    unfold headerSpecs
    rw [hheader]
    rfl
  rw [hfields, hheader, Option.getD_some, foldl_setDefault_eq_map, hspecs]
  · rfl
  · rw [← hspecs]
    exact h.nodup_headerSpecs

theorem LoadedFrom.nodup_fields (h : LoadedFrom source version level directory names ps r)
    (hmade : templateOf (r.activeHeader?.getD ⟨"", [], []⟩) r.definitions p = .ok t) :
    (t.fields.map (·.name)).Nodup := by
  obtain ⟨own, -, hfields⟩ := h.fields_eq hmade
  rw [hfields]
  refine FieldSpec.nodup_overlay ?_ own
  rw [List.map_map]
  exact h.nodup_headerSpecs

/-- A field of the header that the document does not declare again is one of the template. -/
theorem LoadedFrom.mem_fields (h : LoadedFrom source version level directory names ps r)
    (hmade : templateOf (r.activeHeader?.getD ⟨"", [], []⟩) r.definitions p = .ok t)
    {s : FieldSpec} (hs : s ∈ r.headerSpecs) (hnot : s.name ∉ p.document.fields.map (·.name)) :
    s.withDefault (r.segmentOf? p s.name) ∈ t.fields := by
  obtain ⟨own, hown, hfields⟩ := h.fields_eq hmade
  rw [hfields]
  refine FieldSpec.mem_overlay_of_not_mem (List.mem_map.mpr ⟨s, hs, rfl⟩) ?_
  rwa [SchemaDocument.names_fieldSpecs hown]

/-- Only a segment of the id can be a default that makes no field. -/
theorem LoadedFrom.isStampable_fields_iff
    (h : LoadedFrom source version level directory names ps r)
    (hmade : templateOf (r.activeHeader?.getD ⟨"", [], []⟩) r.definitions p = .ok t) :
    (∀ s ∈ t.fields, s.IsStampable) ↔ ∀ s ∈ r.headerSpecs,
      s.name ∉ p.document.fields.map (·.name) → ∀ text, r.segmentOf? p s.name = some text →
        (s.withDefault text).IsStampable := by
  constructor
  · intro hall s hs hnot text htext
    rw [← htext]
    exact hall _ (h.mem_fields hmade hs hnot)
  · intro hall u hu
    obtain ⟨own, hown, hfields⟩ := h.fields_eq hmade
    rw [hfields] at hu
    have hdistinct : ((r.headerSpecs.map fun s => s.withDefault (r.segmentOf? p s.name)).map
        (·.name)).Nodup := by
      rw [List.map_map]
      exact h.nodup_headerSpecs
    -- what documents declare was checked, so a header field without a segment is as it should be
    rcases FieldSpec.mem_overlay_cases hdistinct hu with hu | ⟨hu, hnot⟩
    · exact SchemaDocument.isStampable_fieldSpecs hown u hu
    · obtain ⟨s, hs, rfl⟩ := List.mem_map.mp hu
      rw [SchemaDocument.names_fieldSpecs hown] at hnot
      cases htext : r.segmentOf? p s.name with
      | none =>
        rw [FieldSpec.withDefault_none]
        exact h.isStampable_headerSpecs s hs
      | some text => exact hall s hs hnot text htext

end BusCompliance.Registry
