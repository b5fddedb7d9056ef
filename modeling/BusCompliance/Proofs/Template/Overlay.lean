import BusCompliance.Template.FieldSpec
import Mathlib.Data.List.Nodup

/-!
# Specifications over others

A specification takes the place of the one that has its name, or stands behind all. So names keep
their places, each stands once, and what no specification is put over stays as it is.
-/

namespace BusCompliance.FieldSpec

variable {specs base above : List FieldSpec} {s t : FieldSpec}

/-! ## One specification -/

theorem names_place (specs : List FieldSpec) (s : FieldSpec) :
    (place specs s).map (·.name) = if s.name ∈ specs.map (·.name) then specs.map (·.name)
      else specs.map (·.name) ++ [s.name] := by
  induction specs with
  | nil => rfl
  | cons t rest ih =>
    rw [place]
    by_cases hname : t.name = s.name
    · rw [if_pos hname]
      simp [hname]
    · rw [if_neg hname, List.map_cons, ih]
      by_cases hrest : s.name ∈ rest.map (·.name)
      · simp [hrest]
      · simp [hrest, Ne.symm hname]

theorem names_prefix_place (specs : List FieldSpec) (s : FieldSpec) :
    specs.map (·.name) <+: (place specs s).map (·.name) := by
  rw [names_place]
  split
  · exact List.prefix_refl _
  · exact List.prefix_append _ _

theorem nodup_place (hdistinct : (specs.map (·.name)).Nodup) (s : FieldSpec) :
    ((place specs s).map (·.name)).Nodup := by
  rw [names_place]
  split
  · exact hdistinct
  · rename_i hnew
    exact List.nodup_append.mpr ⟨hdistinct, List.nodup_singleton s.name, by
      rintro a ha b hb rfl
      exact hnew (List.mem_singleton.mp hb ▸ ha)⟩

theorem mem_of_mem_place (h : t ∈ place specs s) : t = s ∨ t ∈ specs := by
  induction specs with
  | nil => exact .inl (List.mem_singleton.mp h)
  | cons u rest ih =>
    rw [place] at h
    split at h
    · exact (List.mem_cons.mp h).imp_right (List.mem_cons_of_mem u)
    · rcases List.mem_cons.mp h with rfl | h
      · exact .inr List.mem_cons_self
      · exact (ih h).imp_right (List.mem_cons_of_mem u)

theorem mem_place_of_ne (ht : t ∈ specs) (hne : t.name ≠ s.name) : t ∈ place specs s := by
  induction specs with
  | nil => cases ht
  | cons u rest ih =>
    rw [place]
    split
    · rename_i hname
      rcases List.mem_cons.mp ht with rfl | ht
      · exact absurd hname hne
      · exact List.mem_cons_of_mem s ht
    · rcases List.mem_cons.mp ht with rfl | ht
      · exact List.mem_cons_self
      · exact List.mem_cons_of_mem u (ih ht)

theorem find?_place (specs : List FieldSpec) (s : FieldSpec) (name : String) :
    (place specs s).find? (fun t => t.name == name) =
      if s.name = name then some s else specs.find? fun t => t.name == name := by
  induction specs with
  | nil => by_cases hname : s.name = name <;> simp [place, hname]
  | cons t rest ih =>
    rw [place]
    by_cases hplace : t.name = s.name
    · rw [if_pos hplace]
      by_cases hname : s.name = name <;> simp [hname, hplace]
    · rw [if_neg hplace]
      by_cases hname : t.name = name
      · have hother : s.name ≠ name := fun hs => hplace (hname.trans hs.symm)
        simp [hname, hother]
      · simp [hname, ih]

/-! ## Many specifications -/

/-- Names that are new stand behind the others in the order in which they first appear. -/
theorem names_overlay (base above : List FieldSpec) : (overlay base above).map (·.name) =
    base.map (·.name) ++
      ((above.map (·.name)).filter fun name => name ∉ base.map (·.name)).eraseDups := by
  unfold overlay
  induction above generalizing base with
  | nil => simp
  | cons s above ih =>
    rw [List.foldl_cons, ih, names_place, List.map_cons]
    by_cases hs : s.name ∈ base.map (·.name)
    · rw [if_pos hs, List.filter_cons_of_neg (by simpa using hs)]
    · rw [if_neg hs, List.filter_cons_of_pos (by simpa using hs), List.eraseDups_cons,
        List.append_assoc, List.singleton_append, List.filter_filter]
      congr 4
      funext name
      simp only [List.mem_append, List.mem_singleton, not_or, beq_eq_decide, Bool.decide_and,
        Bool.and_comm, decide_not]

/-- Each name stands where it first appears. -/
theorem names_overlay_eq_eraseDups {names : List String}
    (hbase : base.map (·.name) = names.eraseDups) (above : List FieldSpec) :
    (overlay base above).map (·.name) = (names ++ above.map (·.name)).eraseDups := by
  rw [names_overlay, hbase, List.eraseDups_append]
  simp [List.removeAll]

/-- The last of the specifications put over others counts. -/
theorem find?_overlay (base above : List FieldSpec) (name : String) :
    (overlay base above).find? (fun t => t.name == name) =
      (above.reverse.find? fun t => t.name == name).or (base.find? fun t => t.name == name) := by
  unfold overlay
  induction above generalizing base with
  | nil => simp
  | cons s above ih =>
    rw [List.foldl_cons, ih, find?_place, List.reverse_cons, List.find?_append, Option.or_assoc]
    by_cases hname : s.name = name <;> simp [hname]

/-- The last specification of its name. -/
def IsLast (specs : List FieldSpec) (s : FieldSpec) : Prop :=
  ∃ front back, specs = front ++ s :: back ∧ ∀ t ∈ back, t.name ≠ s.name

theorem isLast_iff : IsLast specs s ↔
    specs.reverse.find? (fun t => t.name == s.name) = some s := by
  rw [List.find?_eq_some_iff_append]
  constructor
  · rintro ⟨front, back, rfl, hback⟩
    refine ⟨beq_self_eq_true _, back.reverse, front.reverse, by simp, ?_⟩
    intro t ht
    simpa using hback t (List.mem_reverse.mp ht)
  · rintro ⟨-, back, front, hspecs, hback⟩
    refine ⟨front.reverse, back.reverse, ?_, ?_⟩
    · rw [← List.reverse_reverse specs, hspecs]
      simp
    · intro t ht
      simpa using hback t (List.mem_reverse.mp ht)

theorem mem_iff_find? (hdistinct : (specs.map (·.name)).Nodup) :
    s ∈ specs ↔ specs.find? (fun t => t.name == s.name) = some s := by
  constructor
  · intro hs
    obtain ⟨t, ht⟩ := Option.isSome_iff_exists.mp
      ((List.find?_isSome (p := fun t : FieldSpec => t.name == s.name)).mpr
        ⟨s, hs, beq_self_eq_true _⟩)
    have hname := List.find?_some ht
    rw [ht, List.inj_on_of_nodup_map hdistinct (List.mem_of_find?_eq_some ht) hs (beq_iff_eq.mp hname)]
  · exact List.mem_of_find?_eq_some

theorem names_prefix_overlay (base above : List FieldSpec) :
    base.map (·.name) <+: (overlay base above).map (·.name) := by
  unfold overlay
  induction above generalizing base with
  | nil => exact List.prefix_refl _
  | cons s above ih => exact (names_prefix_place base s).trans (ih (place base s))

theorem nodup_overlay (hdistinct : (base.map (·.name)).Nodup) (above : List FieldSpec) :
    ((overlay base above).map (·.name)).Nodup := by
  unfold overlay
  induction above generalizing base with
  | nil => exact hdistinct
  | cons s above ih => exact ih (nodup_place hdistinct s)

theorem mem_overlay_of_not_mem (ht : t ∈ base) (hnot : t.name ∉ above.map (·.name)) :
    t ∈ overlay base above := by
  unfold overlay
  induction above generalizing base with
  | nil => exact ht
  | cons s above ih =>
    rw [List.map_cons, List.mem_cons, not_or] at hnot
    exact ih (mem_place_of_ne ht hnot.1) hnot.2

theorem mem_of_mem_overlay (h : t ∈ overlay base above) : t ∈ above ∨ t ∈ base := by
  unfold overlay at h
  induction above generalizing base with
  | nil => exact .inr h
  | cons s above ih =>
    rcases ih h with h | h
    · exact .inl (List.mem_cons_of_mem s h)
    · rcases mem_of_mem_place h with rfl | h
      · exact .inl List.mem_cons_self
      · exact .inr h

/-- What is there is the last specification of its name, or was there before and none of its name
was put over it. -/
theorem mem_overlay_iff (hdistinct : (base.map (·.name)).Nodup) : t ∈ overlay base above ↔
    IsLast above t ∨ t ∈ base ∧ t.name ∉ above.map (·.name) := by
  rw [mem_iff_find? (nodup_overlay hdistinct above), find?_overlay, Option.or_eq_some_iff,
    ← isLast_iff, mem_iff_find? hdistinct, and_comm (a := base.find? _ = _)]
  simp

/-- What was there before is only what no specification was put over. -/
theorem mem_overlay_cases (hdistinct : (base.map (·.name)).Nodup) (h : t ∈ overlay base above) :
    t ∈ above ∨ t ∈ base ∧ t.name ∉ above.map (·.name) := by
  rcases (mem_overlay_iff hdistinct).mp h with ⟨front, back, rfl, -⟩ | h
  · exact .inl (List.mem_append_right front List.mem_cons_self)
  · exact .inr h

end BusCompliance.FieldSpec
