import BusCompliance.Proofs.Text.Case
import BusCompliance.Text.Dotted

/-!
# Parts of dotted names

What is split off a text makes up the text together with what is left.
-/

namespace BusCompliance.Text

theorem eq_append_of_dropStem {stem cs rest : List Char} (h : dropStem stem cs = some rest) :
    cs = stem ++ rest := by
  unfold dropStem at h
  split at h
  · rename_i hbegins
    obtain ⟨r, rfl⟩ := List.isPrefixOf_iff_prefix.mp hbegins
    rw [List.drop_left, Option.some.injEq] at h
    rw [h]
  · cases h

theorem eq_append_of_splitFirst {sep : Char} {cs a b : List Char}
    (h : splitFirst sep cs = some (a, b)) : cs = a ++ sep :: b := by
  induction cs generalizing a b with
  | nil => cases h
  | cons c r ih =>
    unfold splitFirst at h
    split at h
    · rename_i hc
      simp only [Option.some.injEq, Prod.mk.injEq] at h
      obtain ⟨rfl, rfl⟩ := h
      rw [hc, List.nil_append]
    · obtain ⟨⟨a', b'⟩, hr, he⟩ := Option.map_eq_some_iff.mp h
      simp only [Prod.mk.injEq] at he
      obtain ⟨rfl, rfl⟩ := he
      rw [ih hr, List.cons_append]

/-- The part before the first separator holds none. -/
theorem not_mem_of_splitFirst {sep : Char} {cs a b : List Char}
    (h : splitFirst sep cs = some (a, b)) : sep ∉ a := by
  induction cs generalizing a b with
  | nil => cases h
  | cons c r ih =>
    unfold splitFirst at h
    split at h
    · cases h
      exact List.not_mem_nil
    · rename_i hc
      obtain ⟨⟨a', b'⟩, hr, he⟩ := Option.map_eq_some_iff.mp h
      cases he
      simp [ih hr, Ne.symm hc]

theorem dropStem_append (stem rest : List Char) : dropStem stem (stem ++ rest) = some rest := by
  unfold dropStem
  rw [if_pos (List.isPrefixOf_iff_prefix.mpr (List.prefix_append stem rest)), List.drop_left]

/-- A part that holds no separator ends at the first one. -/
theorem splitFirst_append {sep : Char} {a b : List Char} (h : sep ∉ a) :
    splitFirst sep (a ++ sep :: b) = some (a, b) := by
  induction a with
  | nil => simp [splitFirst]
  | cons c r ih =>
    rw [List.mem_cons, not_or] at h
    rw [List.cons_append, splitFirst, if_neg (Ne.symm h.1), ih h.2]
    rfl

theorem splitFirst_eq_none_iff {sep : Char} {cs : List Char} :
    splitFirst sep cs = none ↔ sep ∉ cs := by
  induction cs with
  | nil => simp [splitFirst]
  | cons c r ih =>
    unfold splitFirst
    split
    · rename_i hc
      simp [hc]
    · rename_i hc
      rw [Option.map_eq_none_iff, ih, List.mem_cons, not_or, and_iff_right (Ne.symm hc)]

/-- A part that holds no beginning of the mark ends at the first one. -/
theorem splitMark_append {c : Char} {a : List Char} (h : c ∉ a) (rest b : List Char) :
    splitMark (c :: rest) (a ++ (c :: rest) ++ b) = some (a, b) := by
  induction a with
  | nil =>
    rw [List.nil_append, List.cons_append, splitMark, if_pos (by simp), List.length_cons,
      Nat.add_sub_cancel, List.drop_left]
  | cons d r ih =>
    rw [List.mem_cons, not_or] at h
    rw [List.cons_append, List.cons_append, splitMark, if_neg (by simp [h.1]), ih h.2]
    rfl

theorem isSome_splitMark_iff {mark cs : List Char} (hmark : mark ≠ []) :
    (splitMark mark cs).isSome = true ↔ mark <:+: cs := by
  induction cs with
  | nil => simp [splitMark, hmark]
  | cons c r ih =>
    unfold splitMark
    rw [List.infix_cons_iff, ← List.isPrefixOf_iff_prefix, ← ih]
    split
    · rename_i hbegins
      simp [hbegins]
    · rename_i hbegins
      simp [hbegins]

/-- No piece between separators holds one. -/
theorem not_mem_of_mem_splitOn {sep : Char} {cs piece : List Char} (h : piece ∈ cs.splitOn sep) :
    sep ∉ piece := by
  induction cs generalizing piece with
  | nil =>
    rw [List.splitOn_nil, List.mem_singleton] at h
    rw [h]
    exact List.not_mem_nil
  | cons c r ih =>
    rw [List.splitOn_cons_eq_if_modifyHead] at h
    split at h
    · rcases List.mem_cons.mp h with rfl | hrest
      · exact List.not_mem_nil
      · exact ih hrest
    · rename_i hc
      obtain ⟨first, rest, hpieces⟩ := List.exists_cons_of_ne_nil (List.splitOn_ne_nil sep r)
      rw [hpieces, List.modifyHead_cons, List.mem_cons] at h
      rcases h with rfl | hrest
      · have hfirst := ih (hpieces ▸ List.mem_cons_self)
        simp only [beq_iff_eq] at hc
        simp [hfirst, Ne.symm hc]
      · exact ih (hpieces ▸ List.mem_cons_of_mem first hrest)

/-- A part without a separator is the first piece. -/
theorem splitOn_append {sep : Char} {a b : List Char} (h : sep ∉ a) :
    (a ++ sep :: b).splitOn sep = a :: b.splitOn sep := by
  rw [List.splitOn_append_cons_self, List.splitOn_eq_singleton h, List.singleton_append]

/-- The first of several pieces stands before a separator, and the others make up what follows. -/
theorem splitOn_eq_cons_iff {sep : Char} {cs a : List Char} {pieces : List (List Char)}
    (hne : pieces ≠ []) : cs.splitOn sep = a :: pieces ↔
      ∃ b, cs = a ++ sep :: b ∧ sep ∉ a ∧ b.splitOn sep = pieces := by
  constructor
  · intro h
    have hpieces : ∀ piece ∈ a :: pieces, sep ∉ piece := fun piece hpiece =>
      not_mem_of_mem_splitOn (h ▸ hpiece)
    refine ⟨[sep].intercalate pieces, ?_, hpieces a List.mem_cons_self, ?_⟩
    · obtain ⟨second, rest, rfl⟩ := List.exists_cons_of_ne_nil hne
      have hcs : [sep].intercalate (cs.splitOn sep) = cs := List.intercalate_splitOn sep
      rw [h] at hcs
      simpa using hcs.symm
    · apply List.splitOn_intercalate
      · exact fun piece hpiece => hpieces piece (List.mem_cons_of_mem a hpiece)
      · exact hne
  · rintro ⟨b, rfl, ha, rfl⟩
    exact splitOn_append ha

theorem splitOn_eq_singleton_iff {sep : Char} {cs a : List Char} :
    cs.splitOn sep = [a] ↔ cs = a ∧ sep ∉ cs := by
  constructor
  · intro h
    have hcs : [sep].intercalate (cs.splitOn sep) = cs := List.intercalate_splitOn sep
    rw [h, List.intercalate_singleton] at hcs
    subst hcs
    exact ⟨rfl, not_mem_of_mem_splitOn (h ▸ List.mem_singleton_self a)⟩
  · rintro ⟨rfl, ha⟩
    exact List.splitOn_eq_singleton ha

theorem segments_join {parts : List String} (hparts : ∀ part ∈ parts, '.' ∉ part.toList)
    (hne : parts ≠ []) : segments (join parts) = parts := by
  unfold segments join
  rw [String.toList_ofList, List.splitOn_intercalate]
  · simp [Function.comp_def]
  · simpa using hparts
  · simpa using hne

theorem dot_not_mem_of_mem_segments {s part : String} (h : part ∈ segments s) :
    '.' ∉ part.toList := by
  obtain ⟨piece, hpiece, rfl⟩ := List.mem_map.mp h
  simpa using not_mem_of_mem_splitOn hpiece

theorem segments_join_take {s : String} {n : Nat} (hn : 0 < n) :
    segments (join ((segments s).take n)) = (segments s).take n := by
  apply segments_join
  · exact fun part hpart => dot_not_mem_of_mem_segments (List.mem_of_mem_take hpart)
  · unfold segments
    simp [Nat.pos_iff_ne_zero.mp hn]

theorem segments_join_drop {s : String} {n : Nat} (hn : n < (segments s).length) :
    segments (join ((segments s).drop n)) = (segments s).drop n := by
  apply segments_join
  · exact fun part hpart => dot_not_mem_of_mem_segments (List.mem_of_mem_drop hpart)
  · simpa using hn

theorem segments_append (a b : String) : segments (a ++ "." ++ b) = segments a ++ segments b := by
  have hcut : (a ++ "." ++ b).toList = a.toList ++ '.' :: b.toList := by
    simp
  unfold segments
  rw [hcut, List.splitOn_append_cons_self, List.map_append]

theorem segments_injective {a b : String} (h : segments a = segments b) : a = b := by
  rw [← join_segments a, h, join_segments]

theorem length_segments_pos (s : String) : 0 < (segments s).length := by
  unfold segments
  rw [List.length_map]
  exact List.length_pos_iff.mpr (List.splitOn_ne_nil '.' s.toList)

theorem one_lt_length_segments_iff {s : String} :
    1 < (segments s).length ↔ '.' ∈ s.toList := by
  constructor
  · intro h
    by_cases hdot : '.' ∈ s.toList
    · exact hdot
    · unfold segments at h
      rw [List.splitOn_eq_singleton hdot] at h
      cases Nat.lt_irrefl 1 h
  · intro hdot
    obtain ⟨a, b, hs⟩ := List.append_of_mem hdot
    have hparts : s = String.ofList a ++ "." ++ String.ofList b := by
      apply String.toList_inj.mp
      rw [hs]
      simp
    have ha := length_segments_pos (String.ofList a)
    have hb := length_segments_pos (String.ofList b)
    rw [hparts, segments_append, List.length_append]
    omega

theorem join_cons_cons (a b : String) (parts : List String) :
    join (a :: b :: parts) = a ++ "." ++ join (b :: parts) := by
  apply String.toList_inj.mp
  simp [join]

theorem segments_eq_singleton {s : String} (h : '.' ∉ s.toList) : segments s = [s] := by
  unfold segments
  rw [List.splitOn_eq_singleton h]
  simp

/-- Parts without dots can be told from what stands behind them, which may hold some. -/
theorem prefix_segments_join {front : List String} (h : ∀ part ∈ front, '.' ∉ part.toList)
    (back : List String) : front <+: segments (join (front ++ back)) := by
  induction front with
  | nil => exact List.nil_prefix
  | cons a front ih =>
    obtain ⟨ha, hfront⟩ := List.forall_mem_cons.mp h
    rw [List.cons_append]
    cases hrest : front ++ back with
    | nil =>
      obtain ⟨rfl, rfl⟩ := List.append_eq_nil_iff.mp hrest
      have hself : segments (join [a]) = [a] := by
        have hjoin : join [a] = a := by simp [join]
        rw [hjoin, segments_eq_singleton ha]
      exact ⟨[], by rw [hself, List.append_nil]⟩
    | cons b rest =>
      rw [join_cons_cons, segments_append, segments_eq_singleton ha, ← hrest]
      exact (List.prefix_append_right_inj [a]).mpr (ih hfront)

theorem empty_mem_segments {s : String} (h : "..".toList <:+: s.toList) : "" ∈ segments s := by
  obtain ⟨front, back, hs⟩ := h
  have hdots : front ++ "..".toList ++ back = front ++ '.' :: ([] ++ '.' :: back) := by
    simp
  unfold segments
  rw [← hs, hdots, List.splitOn_append_cons_self, List.splitOn_append_cons_self]
  simp [List.splitOn_nil]

/-! ## Letter case -/

theorem dot_mem_upper_iff {s : String} : '.' ∈ (upper s).toList ↔ '.' ∈ s.toList := by
  simp [upper, toUpper_eq_iff (d := '.') rfl]

theorem dot_mem_iff_of_sameLetters {a b : String} (h : sameLetters a b = true) :
    '.' ∈ a.toList ↔ '.' ∈ b.toList := by
  rw [← dot_mem_upper_iff, (sameLetters_iff a b).mp h, dot_mem_upper_iff]

theorem upper_eq_empty_iff {s : String} : upper s = "" ↔ s = "" := by
  rw [upper, ← String.toList_eq_nil_iff, String.toList_ofList, List.map_eq_nil_iff,
    String.toList_eq_nil_iff]

end BusCompliance.Text
