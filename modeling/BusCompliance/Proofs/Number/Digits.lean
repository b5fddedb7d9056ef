import BusCompliance.Number.Natural
import Mathlib.Data.List.Induction
import Mathlib.Data.Nat.Digits.Defs

/-!
# Texts of digits

Which characters are digits, and which number a run of them spells.
-/

namespace BusCompliance

theorem isDigit_iff {c : Char} : isDigit c = true ↔ c.isDigit = true := by
  unfold isDigit digitValue? Char.isDigit
  change _ ↔ (decide (48 ≤ c.val) && decide (c.val ≤ 57)) = true
  rw [Bool.and_eq_true, decide_eq_true_eq, decide_eq_true_eq, UInt32.le_iff_toNat_le,
    UInt32.le_iff_toNat_le]
  change _ ↔ 48 ≤ c.toNat ∧ c.toNat ≤ 57
  split <;> simp_all

theorem digitValue?_eq_some_iff {c : Char} {d : Nat} :
    digitValue? c = some d ↔ c.isDigit = true ∧ d = c.toNat - '0'.toNat := by
  rw [← isDigit_iff]
  unfold isDigit digitValue?
  split <;> simp [eq_comm]

/-- The ten digits are all there are. -/
theorem exists_digitChar {c : Char} (h : isDigit c = true) : ∃ d < 10, c = digitChar d := by
  obtain ⟨d, hd⟩ := Option.isSome_iff_exists.mp h
  unfold digitValue? at hd
  split at hd
  · rename_i hc
    refine ⟨c.toNat - 48, by omega, ?_⟩
    rw [digitChar, Nat.add_sub_cancel' hc.1, Char.ofNat_toNat]
  · cases hd

namespace Natural

theorem value?_eq_some_iff {cs : List Char} {n : Nat} : value? cs = some n ↔
    (∀ c ∈ cs, c.isDigit = true) ∧
      n = Nat.ofDigits 10 (cs.reverse.map fun c => c.toNat - '0'.toNat) := by
  induction cs using List.reverseRecOn generalizing n with
  | nil =>
    rw [value?, List.foldl_nil, Option.some.injEq]
    simpa using eq_comm
  | append_singleton cs c ih =>
    have hlast : value? (cs ++ [c]) =
        (value? cs).bind fun m => (digitValue? c).map (10 * m + ·) := by
      simp [value?, appendDigit]
    rw [hlast]
    simp only [Option.bind_eq_some_iff, ih, Option.map_eq_some_iff, digitValue?_eq_some_iff]
    simp only [List.mem_append, List.mem_singleton, List.reverse_append, List.reverse_singleton,
      List.singleton_append, List.map_cons, Nat.ofDigits_cons]
    constructor
    · rintro ⟨m, ⟨hcs, rfl⟩, d, ⟨hc, rfl⟩, rfl⟩
      refine ⟨?_, by omega⟩
      rintro x (hx | rfl)
      · exact hcs x hx
      · exact hc
    · rintro ⟨hall, rfl⟩
      exact ⟨_, ⟨fun x hx => hall x (.inl hx), rfl⟩, _, ⟨hall c (.inr rfl), rfl⟩, by omega⟩

theorem isDigit_of_ofDigits? {cs : List Char} {n : Nat} (h : ofDigits? cs = some n) :
    cs ≠ [] ∧ ∀ c ∈ cs, isDigit c = true := by
  unfold ofDigits? at h
  split at h
  · cases h
  · rename_i hne
    refine ⟨by simpa using hne, fun c hc => ?_⟩
    exact isDigit_iff.mpr ((value?_eq_some_iff.mp h).1 c hc)

end Natural

end BusCompliance
