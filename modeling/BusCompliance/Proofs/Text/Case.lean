import BusCompliance.Text.Blank
import BusCompliance.Text.Case

/-!
# Words in any case

A change of case moves letters to letters and nothing else, so blanks stay blanks and a word stays
a word. A spelling chooses the case of every letter of every word.
-/

namespace BusCompliance.Text

/-! ## Characters -/

section

variable {c d : Char}

theorem toNat_toUpper (c : Char) : c.toUpper.toNat =
    if 97 ≤ c.toNat ∧ c.toNat ≤ 122 then c.toNat - 32 else c.toNat := by
  -- the way from a to A wraps around
  have hway : ('A'.val - 'a'.val).toNat = 2 ^ 32 - 32 := rfl
  have ha : 'a'.val.toNat = 97 := rfl
  have hz : 'z'.val.toNat = 122 := rfl
  unfold Char.toUpper
  simp only [UInt32.le_iff_toNat_le, ha, hz, Char.toNat]
  split
  · rename_i h
    rw [UInt32.toNat_add, hway]
    omega
  · rfl

theorem toNat_toLower (c : Char) : c.toLower.toNat =
    if 65 ≤ c.toNat ∧ c.toNat ≤ 90 then c.toNat + 32 else c.toNat := by
  have hway : ('a'.val - 'A'.val).toNat = 32 := rfl
  have ha : 'A'.val.toNat = 65 := rfl
  have hz : 'Z'.val.toNat = 90 := rfl
  unfold Char.toLower
  simp only [UInt32.le_iff_toNat_le, ha, hz, Char.toNat]
  split
  · rename_i h
    rw [UInt32.toNat_add, hway]
    omega
  · rfl

theorem toUpper_toLower (c : Char) : c.toLower.toUpper = c.toUpper := by
  rw [← Char.toNat_inj, toNat_toUpper, toNat_toUpper, toNat_toLower]
  by_cases hlarge : 65 ≤ c.toNat ∧ c.toNat ≤ 90
  · rw [if_pos hlarge, if_pos (by omega), if_neg (by omega), Nat.add_sub_cancel]
  · rw [if_neg hlarge]

theorem isAlpha_iff : c.isAlpha = true ↔
    65 ≤ c.toNat ∧ c.toNat ≤ 90 ∨ 97 ≤ c.toNat ∧ c.toNat ≤ 122 := by
  have halpha : c.isAlpha = (c.isUpper || c.isLower) := rfl
  have hupper : c.isUpper = decide (c.val ≥ 'A'.val ∧ c.val ≤ 'Z'.val) := rfl
  have hlower : c.isLower = (decide (c.val ≥ 'a'.val) && decide (c.val ≤ 'z'.val)) := rfl
  simp [halpha, hupper, hlower, UInt32.le_iff_toNat_le]

theorem toUpper_eq_or_isAlpha (c : Char) :
    c.toUpper = c ∨ c.isAlpha = true ∧ c.toUpper.isAlpha = true := by
  have hcode := toNat_toUpper c
  rw [isAlpha_iff, isAlpha_iff, ← Char.toNat_inj]
  split at hcode <;> omega

theorem eq_or_isAlpha (h : c.toUpper = d.toUpper) :
    c = d ∨ c.isAlpha = true ∧ d.isAlpha = true := by
  rcases toUpper_eq_or_isAlpha c with hc | ⟨hc, hc'⟩
  · rcases toUpper_eq_or_isAlpha d with hd | ⟨hd, hd'⟩
    · exact .inl (by rw [← hc, h, hd])
    · rw [← hc, h]
      exact .inr ⟨hd', hd⟩
  · rcases toUpper_eq_or_isAlpha d with hd | ⟨hd, _⟩
    · rw [← hd, ← h]
      exact .inr ⟨hc, hc'⟩
    · exact .inr ⟨hc, hd⟩

theorem ne_of_isAlpha (hc : c.isAlpha = true) (hd : d.isAlpha = false) : c ≠ d := by
  rintro rfl
  rw [hc] at hd
  cases hd

theorem toUpper_eq_iff (hd : d.isAlpha = false) : c.toUpper = d ↔ c = d := by
  rcases toUpper_eq_or_isAlpha c with hc | ⟨hc, hc'⟩
  · rw [hc]
  · exact iff_of_false (ne_of_isAlpha hc' hd) (ne_of_isAlpha hc hd)

theorem isBlank_of_isAlpha (h : c.isAlpha = true) : isBlank c = false := by
  rw [isAlpha_iff] at h
  simp [isBlank]
  omega

@[simp] theorem isBlank_toUpper (c : Char) : isBlank c.toUpper = isBlank c := by
  rcases toUpper_eq_or_isAlpha c with hc | ⟨hc, hc'⟩
  · rw [hc]
  · rw [isBlank_of_isAlpha hc, isBlank_of_isAlpha hc']

end

/-! ## Texts -/

theorem trimChars_map_toUpper (cs : List Char) :
    trimChars (cs.map Char.toUpper) = (trimChars cs).map Char.toUpper := by
  have hblank : isBlank ∘ Char.toUpper = isBlank := funext isBlank_toUpper
  simp only [trimChars, trimStartChars, trimEndChars, List.dropWhile_map, ← List.map_reverse,
    hblank]

theorem upper_trim_congr {a b : String} (h : upper a = upper b) :
    upper (trim a) = upper (trim b) := by
  simp only [upper, String.ofList_inj] at h
  simp only [upper, trim, String.toList_ofList, ← trimChars_map_toUpper, h]

/-- Escaping that leaves letters alone does not depend on their case. -/
theorem map_toUpper_flatMap {escape : Char → List Char}
    (hletter : ∀ c : Char, c.isAlpha = true → escape c = [c]) {a b : List Char}
    (h : a.map Char.toUpper = b.map Char.toUpper) :
    (a.flatMap escape).map Char.toUpper = (b.flatMap escape).map Char.toUpper := by
  induction a generalizing b with
  | nil => rw [List.map_eq_nil_iff.mp h.symm]
  | cons c a ih =>
    obtain ⟨d, b, rfl, hc, hb⟩ := List.map_eq_cons_iff.mp h.symm
    have hescape : (escape c).map Char.toUpper = (escape d).map Char.toUpper := by
      rcases eq_or_isAlpha hc.symm with rfl | ⟨hc', hd'⟩
      · rfl
      · rw [hletter c hc', hletter d hd', List.map_singleton, List.map_singleton, hc]
    rw [List.flatMap_cons, List.flatMap_cons, List.map_append, List.map_append, hescape,
      ih hb.symm]

/-! ## Words -/

def IsWord (cs : List Char) : Prop := cs ≠ [] ∧ ∀ c ∈ cs, c.isAlpha = true

instance (cs : List Char) : Decidable (IsWord cs) :=
  decidable_of_iff (cs ≠ [] ∧ cs.all Char.isAlpha = true) (by simp [IsWord])

/-- A way to write words, each in its own letters. -/
structure Spelling where
  word : String → String
  same : ∀ w, sameLetters (word w) w = true

namespace Spelling

/-- Every word as it is. -/
def plain : Spelling := ⟨id, sameLetters_refl⟩

/-- Every word in small letters. -/
def small : Spelling where
  word w := String.ofList (w.toList.map Char.toLower)
  same w := by
    simp only [sameLetters, String.toList_ofList, List.map_map, Function.comp_def,
      toUpper_toLower, beq_self_eq_true]

variable (σ : Spelling)

@[simp] theorem upper_word (w : String) : upper (σ.word w) = upper w :=
  (sameLetters_iff _ _).mp (σ.same w)

@[simp] theorem map_toUpper_word (w : String) :
    (σ.word w).toList.map Char.toUpper = w.toList.map Char.toUpper := by
  simpa [sameLetters] using σ.same w

theorem isWord_word {w : String} (h : IsWord w.toList) : IsWord (σ.word w).toList := by
  have hmap := σ.map_toUpper_word w
  refine ⟨fun hnil => h.1 ?_, fun c hc => ?_⟩
  · rw [hnil] at hmap
    exact List.map_eq_nil_iff.mp hmap.symm
  · have hmem : c.toUpper ∈ w.toList.map Char.toUpper := hmap ▸ List.mem_map_of_mem hc
    obtain ⟨d, hd, hdc⟩ := List.mem_map.mp hmem
    rcases eq_or_isAlpha hdc with rfl | ⟨_, hletter⟩
    · exact h.2 d hd
    · exact hletter

end Spelling

end BusCompliance.Text
