import BusCompliance.Proofs.Text.Dotted
import BusCompliance.Registry.Lookup

/-!
# Templates under their own ids

What a look-up comes to, and in which order it tries the bases of an id. A template that is found by
any id is listed under its own. It is found by that too, unless the id is blank or begins like a
qualified one.
-/

namespace BusCompliance.Registry

variable {r : Registry} {id : String} {t : Template}

/-! ## Qualified ids -/

/-- The version folder, the name of a level in any case and a rest, joined by dots. -/
def IsQualified (r : Registry) (id : String) : Prop :=
  ∃ h ∈ r.headers, ∃ level rest, Text.sameLetters h.name level = true ∧
    id = versionFolder r.version ++ "." ++ level ++ "." ++ rest

/-- What is taken off an id ends at the first dot behind the version. -/
theorem unqualified_cases (r : Registry) (id : String) : r.unqualified id = id ∨
    ∃ h ∈ r.headers, ∃ level, Text.sameLetters h.name level = true ∧ '.' ∉ level.toList ∧
      id = versionFolder r.version ++ "." ++ level ++ "." ++ r.unqualified id := by
  unfold unqualified
  simp only
  split
  · rename_i level bare hsplit
    split
    · rename_i hnamed
      obtain ⟨h, hfound⟩ := Option.isSome_iff_exists.mp hnamed
      have hletters : Text.sameLetters h.name (String.ofList level) = true := by
        simpa using List.find?_some hfound
      obtain ⟨behind, hstem, hfirst⟩ := Option.bind_eq_some_iff.mp hsplit
      refine .inr ⟨h, List.mem_of_find?_eq_some hfound, String.ofList level, hletters, ?_, ?_⟩
      · rw [String.toList_ofList]
        exact Text.not_mem_of_splitFirst hfirst
      · apply String.toList_inj.mp
        rw [Text.eq_append_of_dropStem hstem, Text.eq_append_of_splitFirst hfirst]
        simp
    · exact .inl rfl
  · exact .inl rfl

/-- An id that does not begin with the version is not qualified. -/
theorem not_isQualified (h : ¬(versionFolder r.version ++ ".").toList <+: id.toList) :
    ¬r.IsQualified id := by
  rintro ⟨_, -, level, rest, -, rfl⟩
  refine h ?_
  simp only [String.toList_append, List.append_assoc]
  exact (List.prefix_append_right_inj _).mpr (List.prefix_append _ _)

theorem unqualified_eq_self (hplain : ¬r.IsQualified id) : r.unqualified id = id := by
  rcases r.unqualified_cases id with hself | ⟨h, hh, level, hletters, -, he⟩
  · exact hself
  · exact absurd ⟨h, hh, level, _, hletters, he⟩ hplain

/-- What an id qualifies has fewer segments than the id, or is the id. -/
theorem length_segments_unqualified (r : Registry) (id : String) :
    (Text.segments (r.unqualified id)).length ≤ (Text.segments id).length := by
  rcases r.unqualified_cases id with hself | ⟨h, -, level, -, -, he⟩
  · exact Nat.le_of_eq (congrArg (fun s => (Text.segments s).length) hself)
  · generalize r.unqualified id = bare at he ⊢
    rw [he, Text.segments_append, List.length_append]
    omega

/-! ## What a look-up comes to -/

/-- An id is looked up by what it qualifies: by its name, and else by its bases. -/
theorem outcome_findTemplate (r : Registry) (id : String) : (r.findTemplate id).outcome =
    if Text.allBlank id then .error .blankSchemaId
    else
      match (r.byName? (r.unqualified id)).or (r.byBase? (r.unqualified id)) with
      | some t => .ok t
      | none => .error (.unknownSchema id) := by
  unfold findTemplate
  simp only
  split
  · rfl
  · cases r.byName? (r.unqualified id) with
    | some t => rfl
    | none =>
      cases r.byBase? (r.unqualified id) with
      | some t => rfl
      | none => rfl

theorem findTemplate_eq_ok_iff : (r.findTemplate id).outcome = .ok t ↔ Text.allBlank id = false ∧
    (r.byName? (r.unqualified id)).or (r.byBase? (r.unqualified id)) = some t := by
  rw [outcome_findTemplate]
  cases Text.allBlank id <;>
    cases (r.byName? (r.unqualified id)).or (r.byBase? (r.unqualified id)) <;> simp

theorem findTemplate_eq_error_iff {e : Error} : (r.findTemplate id).outcome = .error e ↔
    (Text.allBlank id = true ∧ e = .blankSchemaId) ∨ (Text.allBlank id = false ∧
      (r.byName? (r.unqualified id)).or (r.byBase? (r.unqualified id)) = none ∧
      e = .unknownSchema id) := by
  rw [outcome_findTemplate]
  cases Text.allBlank id <;>
    cases (r.byName? (r.unqualified id)).or (r.byBase? (r.unqualified id)) <;> simp [eq_comm]

/-! ## Bases -/

theorem mem_bases_iff {base : String} : base ∈ bases id ↔
    ∃ n, 2 ≤ n ∧ n < (Text.segments id).length ∧ base = Text.join ((Text.segments id).take n) := by
  unfold bases
  simp only [List.mem_map, List.mem_reverse, List.mem_range'_1]
  constructor
  · rintro ⟨n, hn, rfl⟩
    exact ⟨n, hn.1, by omega, rfl⟩
  · rintro ⟨n, hfirst, hlast, rfl⟩
    exact ⟨n, ⟨hfirst, by omega⟩, rfl⟩

/-- Of two bases of an id, the shorter one is a base of the longer. -/
theorem bases_pairwise (id : String) :
    (bases id).Pairwise fun long short => short ∈ bases long := by
  change ((List.range' 2 ((Text.segments id).length - 2)).reverse.map fun n =>
    Text.join ((Text.segments id).take n)).Pairwise fun long short => short ∈ bases long
  rw [List.pairwise_map, List.pairwise_reverse]
  refine List.Pairwise.imp_of_mem ?_ List.pairwise_lt_range'
  intro m n hm hn hlt
  rw [List.mem_range'_1] at hm hn
  have hlong : Text.segments (Text.join ((Text.segments id).take n)) = (Text.segments id).take n :=
    Text.segments_join_take (by omega)
  refine mem_bases_iff.mpr ⟨m, hm.1, ?_, ?_⟩
  · rw [hlong, List.length_take]
    omega
  · rw [hlong, List.take_take, Nat.min_eq_left (Nat.le_of_lt hlt)]

theorem length_segments_of_mem_bases {base : String} (h : base ∈ bases id) :
    (Text.segments base).length < (Text.segments id).length := by
  obtain ⟨n, hfirst, hlast, rfl⟩ := mem_bases_iff.mp h
  rw [Text.segments_join_take (by omega), List.length_take]
  omega

/-- An id is not among the bases that it is looked up by. -/
theorem not_mem_bases_unqualified (r : Registry) (id : String) : id ∉ bases (r.unqualified id) := by
  intro h
  have hbase := length_segments_of_mem_bases h
  have hbare := r.length_segments_unqualified id
  omega

/-! ## Found templates -/

theorem listed_of_byName? (h : r.byName? id = some t) : r.templates.get? t.id = some t := by
  unfold byName? at h
  split at h
  · rename_i found hget
    cases h
    rw [Roster.key_of_get? hget, hget]
  · obtain ⟨⟨_, target⟩, _, hget⟩ := Option.bind_eq_some_iff.mp h
    simp only at hget
    rw [Roster.key_of_get? hget, hget]

theorem listed_of_byBase? (h : r.byBase? id = some t) : r.templates.get? t.id = some t := by
  obtain ⟨base, _, hget⟩ := List.exists_of_findSome?_eq_some h
  rw [Roster.key_of_get? hget, hget]

theorem listed_of_findTemplate (h : (r.findTemplate id).outcome = .ok t) :
    r.templates.get? t.id = some t := by
  obtain ⟨-, hfound⟩ := findTemplate_eq_ok_iff.mp h
  rcases Option.or_eq_some_iff.mp hfound with hname | ⟨-, hbase⟩
  · exact listed_of_byName? hname
  · exact listed_of_byBase? hbase

theorem mem_schemaIds (h : r.templates.get? t.id = some t) : t.id ∈ r.schemaIds :=
  List.mem_map.mpr ⟨t, List.mem_of_find?_eq_some h, rfl⟩

theorem findTemplate_listed (hlisted : r.templates.get? t.id = some t)
    (hfilled : Text.allBlank t.id = false) (hplain : ¬r.IsQualified t.id) :
    r.findTemplate t.id = pure t := by
  have hname : r.byName? t.id = some t := by
    unfold byName?
    rw [hlisted]
  unfold findTemplate
  rw [hfilled, unqualified_eq_self hplain]
  simp only [hname]
  rfl

end BusCompliance.Registry
