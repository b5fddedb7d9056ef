import BusCompliance.Proofs.Registry.Composition

/-!
# Where the fields of a template come from

Headers are laid over each other from the lowest level on. A template has the fields of that stack
first, each as the highest header that declares it has it, with its segment of the id as default,
and behind them those that only its document declares. What the document declares counts in any
case.
-/

namespace BusCompliance

/-- The document declares the specification, as the last one of its name. -/
def SchemaDocument.Declares (d : SchemaDocument) (s : FieldSpec) : Prop :=
  ∃ specs, d.fieldSpecs = .ok specs ∧ FieldSpec.IsLast specs s

theorem SchemaDocument.declares_iff {d : SchemaDocument} {specs : List FieldSpec} {s : FieldSpec}
    (h : d.fieldSpecs = .ok specs) : d.Declares s ↔ FieldSpec.IsLast specs s := by
  unfold Declares
  simp [h]

namespace Registry

variable {source : Source} {version top : Nat} {level : SchemaLevel} {r : Registry}
  {directory : Directory} {ps hs : List Placed} {p : Placed} {names segments : List String}
  {specs base : List FieldSpec} {s : FieldSpec} {t : Template} {name text : String}

/-! ## Stacks of headers -/

/-- The highest header that declares a field of the name declares it so. -/
def Inherits (hs : List Placed) (s : FieldSpec) : Prop :=
  ∃ below p above, hs = below ++ p :: above ∧ p.document.Declares s ∧
    ∀ q ∈ above, s.name ∉ q.document.fields.map (·.name)

theorem inherits_concat_iff : Inherits (hs ++ [p]) s ↔
    p.document.Declares s ∨ Inherits hs s ∧ s.name ∉ p.document.fields.map (·.name) :=
  exists_latest_concat_iff

/-- The specifications are those of the headers, each laid over the ones before it. -/
structure Layers (hs : List Placed) (specs : List FieldSpec) : Prop where
  distinct : (specs.map (·.name)).Nodup
  /-- A field stands where it is first declared. -/
  names : specs.map (·.name) = (hs.flatMap fun p => p.document.fields.map (·.name)).eraseDups
  mem_iff : ∀ s, s ∈ specs ↔ Inherits hs s

theorem Layers.nil : Layers [] [] where
  distinct := List.nodup_nil
  names := rfl
  mem_iff s := by
    refine iff_of_false List.not_mem_nil ?_
    rintro ⟨below, p, above, hstack, -⟩
    simp at hstack

theorem Layers.concat (h : Layers hs base) (hspecs : p.document.fieldSpecs = .ok specs) :
    Layers (hs ++ [p]) (FieldSpec.overlay base specs) where
  distinct := FieldSpec.nodup_overlay h.distinct specs
  names := by
    rw [FieldSpec.names_overlay_eq_eraseDups h.names, SchemaDocument.names_fieldSpecs hspecs,
      List.flatMap_append, List.flatMap_singleton]
  mem_iff s := by
    rw [FieldSpec.mem_overlay_iff h.distinct, h.mem_iff, inherits_concat_iff,
      SchemaDocument.declares_iff hspecs, SchemaDocument.names_fieldSpecs hspecs]

/-- The headers of the lowest levels, from the lowest one on. -/
structure IsStack (source : Source) (version height : Nat) (hs : List Placed) : Prop where
  held : ∀ p ∈ hs, Holds source version p
  keys : hs.map Placed.key = (List.range height).map fun n => (headerId, n)

theorem exists_stack {headers : List Header} (hreads : Reads source version directory ps)
    (hdistinct : (ps.map Placed.key).Nodup)
    (h : addHeaders ps [] names.zipIdx = .ok headers) :
    ∃ hs, IsStack source version names.length hs ∧ Layers hs (fieldsOf headers) := by
  induction names using List.reverseRecOn generalizing headers with
  | nil =>
    cases h
    exact ⟨[], ⟨fun p hp => absurd hp List.not_mem_nil, rfl⟩, Layers.nil⟩
  | append_singleton names name ih =>
    rw [List.zipIdx_append] at h
    obtain ⟨below, hbelow, habove⟩ := foldlM_append_eq_ok_iff.mp h
    obtain ⟨_, hadd, ⟨⟩⟩ := bind_eq_ok_iff.mp habove
    obtain ⟨p, specs, own, hfirst, hspecs, -, rfl⟩ := addHeader_eq_ok_iff.mp hadd
    obtain ⟨hp, hkey⟩ := (isFirstHeader_iff hdistinct).mp hfirst
    obtain ⟨hs, hstack, hlayers⟩ := ih hbelow
    refine ⟨hs ++ [p], ⟨forall_mem_concat hstack.held (hreads.holds_iff.mpr hp), ?_⟩, ?_⟩
    · rw [List.map_append, hstack.keys, List.length_append, List.length_singleton,
        List.range_succ, List.map_append, List.map_singleton, List.map_singleton, hkey,
        Nat.zero_add]
    · rw [fieldsOf_concat]
      exact hlayers.concat hspecs

/-! ## Segments of an id -/

/-- The last of the positions that have a segment at which the name stands. -/
structure IsLastPosition (names segments : List String) (name : String) (k : Nat) : Prop where
  within : k < segments.length
  stands : names[k]? = some name
  last : ∀ j, k < j → j < segments.length → names[j]? ≠ some name

/-- What becomes of a header field where the names make up the id. -/
inductive TakesSegment (names segments : List String) (s : FieldSpec) : FieldSpec → Prop
  | segment {k : Nat} {text : String} (hlast : IsLastPosition names segments s.name k)
      (htext : segments[k]? = some text) :
      TakesSegment names segments s { s with default := some text }
  | unchanged (hnone : ∀ k < segments.length, names[k]? ≠ some s.name) :
      TakesSegment names segments s s

theorem TakesSegment.name_eq {h : FieldSpec} (htakes : TakesSegment names segments h s) :
    s.name = h.name := by
  cases htakes <;> rfl

theorem IsLastPosition.unique {j k : Nat} (hj : IsLastPosition names segments name j)
    (hk : IsLastPosition names segments name k) : j = k := by
  rcases Nat.lt_trichotomy j k with hlt | heq | hlt
  · exact absurd hk.stands (hj.last k hlt hk.within)
  · exact heq
  · exact absurd hj.stands (hk.last j hlt hj.within)

theorem getElem?_zip_of_lt {k : Nat} (hk : k < segments.length) (hname : names[k]? = some name) :
    (names.zip segments)[k]? = some (name, segments[k]) :=
  List.getElem?_zip_eq_some.mpr ⟨hname, List.getElem?_eq_getElem hk⟩

theorem lookup_reverse_eq_none_iff : (names.zip segments).reverse.lookup name = none ↔
    ∀ k < segments.length, names[k]? ≠ some name := by
  rw [List.lookup_eq_none_iff]
  constructor
  · intro h k hk hname
    have hmem := List.mem_of_getElem? (getElem?_zip_of_lt hk hname)
    simpa using h _ (List.mem_reverse.mpr hmem)
  · rintro h ⟨other, text⟩ hmem
    obtain ⟨k, hk⟩ := List.mem_iff_getElem?.mp (List.mem_reverse.mp hmem)
    obtain ⟨hname, htext⟩ := List.getElem?_zip_eq_some.mp hk
    rw [bne_iff_ne]
    rintro rfl
    exact h k (List.getElem?_eq_some_iff.mp htext).1 hname

theorem exists_isLastPosition (h : (names.zip segments).reverse.lookup name = some text) :
    ∃ k, IsLastPosition names segments name k ∧ segments[k]? = some text := by
  obtain ⟨back, front, hsplit, hback⟩ := List.lookup_eq_some_iff.mp h
  have hzip : names.zip segments = front.reverse ++ (name, text) :: back.reverse := by
    rw [← List.reverse_reverse (names.zip segments), hsplit]
    simp
  have hat : (names.zip segments)[front.length]? = some (name, text) := by
    rw [hzip, List.getElem?_append_right (by simp)]
    simp
  obtain ⟨hname, htext⟩ := List.getElem?_zip_eq_some.mp hat
  refine ⟨front.length, ⟨(List.getElem?_eq_some_iff.mp htext).1, hname, ?_⟩, htext⟩
  intro j hj hwithin hlater
  have hbehind := getElem?_zip_of_lt hwithin hlater
  rw [hzip, List.getElem?_append_right (by simp; omega)] at hbehind
  obtain ⟨i, hi⟩ : ∃ i, j - front.reverse.length = i + 1 :=
    ⟨j - front.length - 1, by simp; omega⟩
  rw [hi, List.getElem?_cons_succ] at hbehind
  simpa using hback _ (List.mem_reverse.mp (List.mem_of_getElem? hbehind))

theorem takesSegment_iff {h : FieldSpec} : TakesSegment names segments h s ↔
    s = h.withDefault ((names.zip segments).reverse.lookup h.name) := by
  constructor
  · rintro (⟨hlast, htext⟩ | hnone)
    · cases hfound : (names.zip segments).reverse.lookup h.name with
      | none => exact absurd hlast.stands (lookup_reverse_eq_none_iff.mp hfound _ hlast.within)
      | some text =>
        obtain ⟨k, hlast', htext'⟩ := exists_isLastPosition hfound
        rw [hlast.unique hlast', htext', Option.some.injEq] at htext
        rw [htext]
        rfl
    · rw [lookup_reverse_eq_none_iff.mpr hnone, FieldSpec.withDefault_none]
  · rintro rfl
    cases hfound : (names.zip segments).reverse.lookup h.name with
    | none =>
      rw [FieldSpec.withDefault_none]
      exact .unchanged (lookup_reverse_eq_none_iff.mp hfound)
    | some text =>
      obtain ⟨k, hlast, htext⟩ := exists_isLastPosition hfound
      exact .segment hlast htext

/-! ## Templates -/

/-- The fields of a template by the headers, the document and the definition that it is made of. -/
structure IsComposedOf (hs : List Placed) (header : List FieldSpec) (p : Placed) (d : Definition)
    (t : Template) : Prop where
  distinct : (t.fields.map (·.name)).Nodup
  /-- Behind the fields of the header stand those that only the document declares. -/
  names : t.fields.map (·.name) = header.map (·.name) ++
    ((p.document.fields.map (·.name)).filter fun name => name ∉ header.map (·.name)).eraseDups
  mem_iff : ∀ s, s ∈ t.fields ↔ p.document.Declares s ∨
    ∃ h, Inherits hs h ∧ h.name ∉ p.document.fields.map (·.name) ∧
      TakesSegment d.fields (Text.segments t.id) h s

theorem LoadedFrom.isComposedOf (h : LoadedFrom source version level directory names ps r)
    (hlayers : Layers hs r.headerSpecs) {d : Definition}
    (hdefinition : r.definition? p.document.id p.level = some d)
    (hmade : templateOf (r.activeHeader?.getD ⟨"", [], []⟩) r.definitions p = .ok t) :
    IsComposedOf hs r.headerSpecs p d t := by
  obtain ⟨own, hown, hfields⟩ := h.fields_eq hmade
  have hsegment (name : String) : r.segmentOf? p name =
      (d.fields.zip (Text.segments t.id)).reverse.lookup name := by
    unfold segmentOf? idFields
    rw [hdefinition, (templateOf_eq_ok hmade).1]
    rfl
  have hnames : (r.headerSpecs.map fun s => s.withDefault (r.segmentOf? p s.name)).map (·.name) =
      r.headerSpecs.map (·.name) := by
    rw [List.map_map]
    rfl
  refine ⟨h.nodup_fields hmade, ?_, fun s => ?_⟩
  · rw [hfields, FieldSpec.names_overlay, hnames, SchemaDocument.names_fieldSpecs hown]
  · have hinherits : s ∈ (r.headerSpecs.map fun s => s.withDefault (r.segmentOf? p s.name)) ↔
        ∃ h, Inherits hs h ∧ TakesSegment d.fields (Text.segments t.id) h s := by
      simp only [List.mem_map, hlayers.mem_iff, takesSegment_iff, hsegment, eq_comm]
    rw [hfields, FieldSpec.mem_overlay_iff (by rw [hnames]; exact h.nodup_headerSpecs), hinherits,
      SchemaDocument.declares_iff hown, SchemaDocument.names_fieldSpecs hown]
    refine or_congr_right ⟨?_, ?_⟩
    · rintro ⟨⟨u, hu, htakes⟩, hnot⟩
      exact ⟨u, hu, htakes.name_eq ▸ hnot, htakes⟩
    · rintro ⟨u, hu, hnot, htakes⟩
      exact ⟨⟨u, hu, htakes⟩, htakes.name_eq ▸ hnot⟩

/-- The fields of a template are those of the header, in its order, and behind them those that only
its document declares. Each is declared in the document, or else in the highest header that has it,
but for the segment of the id that its place in the definition gives it. -/
theorem load_composed (hload : (load source version level).outcome = .ok r) :
    ∃ hs, IsStack source version (level.value + 1) hs ∧ Layers hs r.headerSpecs ∧
      ∀ t ∈ r.templates.toList, ∃ p d, IsDocumentOf source version level.value t.id p ∧
        t.level.value = p.level ∧ r.definition? t.id t.level.value = some d ∧
        IsComposedOf hs r.headerSpecs p d t := by
  obtain ⟨directory, names, ps, h⟩ := exists_loadedFrom hload
  obtain ⟨hs, hstack, hlayers⟩ := exists_stack h.reads h.fits.distinct h.headers
  rw [length_levelNames h.levels] at hstack
  refine ⟨hs, hstack, hlayers, fun t ht => ?_⟩
  obtain ⟨p, hp, hmade⟩ := h.get?_templates_iff.mp (Roster.get?_of_mem ht)
  obtain ⟨d, hd⟩ := h.exists_definition hp.held hp.within
  have hlevel := (templateOf_eq_ok hmade).2.1
  refine ⟨p, d, hp, hlevel, ?_, h.isComposedOf hlayers hd hmade⟩
  rw [hlevel, ← hp.schema]
  exact hd

/-- A source of two levels. The upper header declares G anew, twice, and the document of the schema
A.B has H from that header and a field of its own. -/
def composedSource : Source := .inline
  ("levels=[\x7blevel=0,name=\"L\"\x7d,\x7blevel=1,name=\"M\"\x7d]\n" ++
    "schemas=[\x7bid=\"HEADER\",level=0\x7d,\x7bid=\"A.B\",level=1\x7d," ++
    "\x7bid=\"HEADER\",level=1,definition=[\"G\",\"F\",\"G\"]\x7d]")
  [("a", "id=\"HEADER\"\nlevel=\"L\"\n" ++
      "fields=[\x7bname=\"F\",type=\"U8\",mode=\"OPTIONAL\"\x7d," ++
      "\x7bname=\"G\",type=\"U8\",mode=\"OPTIONAL\"\x7d]"),
    ("b", "id=\"HEADER\"\nlevel=\"M\"\n" ++
      "fields=[\x7bname=\"H\",type=\"U8\",mode=\"OPTIONAL\"\x7d," ++
      "\x7bname=\"G\",type=\"U8\",mode=\"OPTIONAL\"\x7d," ++
      "\x7bname=\"G\",type=\"U16\",mode=\"REQUIRED\"\x7d]"),
    ("c", "id=\"A.B\"\nlevel=\"M\"\n" ++
      "fields=[\x7bname=\"K\",type=\"U8\",mode=\"OPTIONAL\"\x7d," ++
      "\x7bname=\"H\",type=\"U16\",mode=\"REQUIRED\"\x7d]")]

theorem load_composedSource : ∃ r,
    (load composedSource 201900 ⟨1, by decide⟩).outcome = .ok r ∧
      decide ((r.templates.get? "A.B").map (·.fields.map fun s => (s.name, s.mode, s.default)) =
        some [("F", .optional, some "B"), ("G", .required, some "A"), ("H", .required, none),
          ("K", .optional, none)]) = true :=
  exists_load (by decide +kernel)

/-- G is as the upper header has it last, with the first segment: the id has none for its second
place in the definition. -/
theorem load_composed_redeclared : ∃ r t hs p d,
    (load composedSource 201900 ⟨1, by decide⟩).outcome = .ok r ∧
    r.templates.get? "A.B" = some t ∧ IsStack composedSource 201900 2 hs ∧
    IsComposedOf hs r.headerSpecs p d t ∧
    t.fields.map (fun s => (s.name, s.mode, s.default)) =
      [("F", .optional, some "B"), ("G", .required, some "A"), ("H", .required, none),
        ("K", .optional, none)] := by
  obtain ⟨r, hload, hfacts⟩ := load_composedSource
  obtain ⟨t, ht, hfields⟩ := Option.map_eq_some_iff.mp (of_decide_eq_true hfacts)
  obtain ⟨hs, hstack, -, htemplates⟩ := load_composed hload
  obtain ⟨p, d, -, -, -, hcomposed⟩ := htemplates t (Roster.mem_of_get? ht)
  exact ⟨r, t, hs, p, d, hload, ht, hstack, hcomposed, hfields⟩

end Registry

end BusCompliance
