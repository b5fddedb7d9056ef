import BusCompliance.Proofs.Number.FloatText
import BusCompliance.Proofs.Number.Spelling

/-!
# Rounding keeps the order

Of two quotients the lesser never rounds above the greater, so the only thing that rounding can do
to an order is to make two numbers equal. Whole numbers below twice the leading bit of a format are
never made equal to another one, and above that only to near ones.
-/

namespace BusCompliance

namespace FloatType

variable {t : FloatType} {m m' num num' den den' n : Nat} {q q' : Int} {v w : ℚ}

/-! ## Patterns in the order of their values -/

theorem Fits.lt_of_code_lt (h : t.Fits m q) (h' : t.Fits m' q') (hlt : t.code m q < t.code m' q') :
    (m : ℚ) * 2 ^ q < m' * 2 ^ q' := by
  have hp := two_zpow_pos q
  rcases Int.lt_trichotomy q q' with hq | rfl | hq
  · have hm : (m : ℚ) < 2 * ((2 ^ t.fractionBits : Nat) : ℚ) := by exact_mod_cast h.lt
    have hm' : ((2 ^ t.fractionBits : Nat) : ℚ) ≤ m' := by
      exact_mod_cast h'.leading (lt_of_le_of_lt h.least_le hq)
    calc (m : ℚ) * 2 ^ q < 2 * ((2 ^ t.fractionBits : Nat) : ℚ) * 2 ^ q :=
          mul_lt_mul_of_pos_right hm hp
      _ = ((2 ^ t.fractionBits : Nat) : ℚ) * 2 ^ (q + 1) := by rw [two_zpow_succ]; ring
      _ ≤ m' * 2 ^ q' :=
          mul_le_mul hm' (zpow_le_zpow_right₀ (by norm_num) hq) (two_zpow_pos _).le (by positivity)
  · have hm : m < m' := by
      unfold code at hlt
      omega
    exact mul_lt_mul_of_pos_right (by exact_mod_cast hm) hp
  · exact absurd hlt (h'.code_lt h hq).not_gt

theorem Rounds.code_mono (hv : t.Rounds v m q) (hw : t.Rounds w m' q') (hle : v ≤ w) :
    t.code m q ≤ t.code m' q' := by
  obtain ⟨a, s, hfits, hcode, hreach⟩ := hv.code_eq
  obtain ⟨a', s', hfits', hcode', hreach'⟩ := hw.code_eq
  by_contra hlt
  rw [hcode, hcode', Nat.not_le] at hlt
  have hvalue := hfits'.lt_of_code_lt hfits hlt
  rcases le_total v (a' * 2 ^ s') with hbelow | habove
  · -- the lesser value is within reach of the greater one
    have hself := hreach.between (Reaches.self a s _) hbelow hvalue.le
    exact hvalue.ne' (hfits.eq_of_reaches hfits'.lt hfits'.least_le hself)
  · -- the lesser quotient is within reach of the lesser value too
    have hboth := (Reaches.self a' s' _).between hreach' habove hle
    rw [← hcode, hv.code_eq_of_reaches hfits' hboth] at hlt
    exact absurd hlt (lt_irrefl _)

theorem nearestCode_mono (hd : 0 < den) (hd' : 0 < den') (h : (num : ℚ) / den ≤ num' / den') :
    t.nearestCode num den ≤ t.nearestCode num' den' := by
  have hden : (0 : ℚ) < den := by exact_mod_cast hd
  rcases Nat.eq_zero_or_pos num with rfl | hn
  · rw [nearestCode, if_pos rfl]
    exact Nat.zero_le _
  · have hn' : 0 < num' := by
      refine Nat.pos_of_ne_zero ?_
      rintro rfl
      rw [Nat.cast_zero, zero_div] at h
      exact absurd (div_pos (by exact_mod_cast hn) hden) h.not_gt
    obtain ⟨r, e, hrounds, hcode⟩ := t.exists_rounds hn hd
    obtain ⟨r', e', hrounds', hcode'⟩ := t.exists_rounds hn' hd'
    rw [hcode, hcode']
    exact min_le_min_right _ (hrounds.code_mono hrounds' h)

theorem nearestCode_one_mono {a b : Nat} (h : a ≤ b) : t.nearestCode a 1 ≤ t.nearestCode b 1 := by
  refine nearestCode_mono Nat.one_pos Nat.one_pos ?_
  rw [Nat.cast_one, div_one, div_one]
  exact_mod_cast h

theorem nearestCode_one_pos (hn : 0 < n) : 0 < t.nearestCode n 1 := by
  have hone : 0 < t.nearestCode 1 1 := by cases t <;> decide +kernel
  exact hone.trans_le (nearestCode_one_mono hn)

/-! ## Whole numbers in the order of their patterns -/

variable {j k : Int}

/-- The rank of the pattern nearest to a whole number. -/
def wholeRank (t : FloatType) (j : Int) : Int := withSign (j < 0) (t.nearestCode j.natAbs 1)

theorem rank?_nearest (t : FloatType) (negative : Bool) (num den : Nat) :
    t.rank? (t.nearest negative num den) = some (withSign negative (t.nearestCode num den)) := by
  unfold rank? withSign
  dsimp only
  rw [magnitude_nearest, isNegative_nearest, if_neg (t.nearestCode_le num den).not_gt]

theorem rank?_ofInt (t : FloatType) (j : Int) : t.rank? (t.ofInt j) = some (t.wholeRank j) :=
  t.rank?_nearest _ _ _

theorem rank?_nearest_withSign (t : FloatType) (negative : Bool) (n : Nat) :
    t.rank? (t.nearest negative n 1) = some (t.wholeRank (withSign negative n)) := by
  rw [rank?_nearest, wholeRank, natAbs_withSign]
  rcases Nat.eq_zero_or_pos n with rfl | hn
  · -- the zeros have one rank
    rw [nearestCode, if_pos rfl]
    cases negative <;> rfl
  · rw [withSign_neg_iff hn]

theorem wholeRank_mono (h : j ≤ k) : t.wholeRank j ≤ t.wholeRank k := by
  unfold wholeRank withSign
  simp only [decide_eq_true_eq]
  split_ifs with hj hk hk
  · have := nearestCode_one_mono (t := t) (show k.natAbs ≤ j.natAbs by omega)
    omega
  · omega
  · omega
  · have := nearestCode_one_mono (t := t) (show j.natAbs ≤ k.natAbs by omega)
    omega

theorem wholeRank_eq_iff : t.wholeRank j = t.wholeRank k ↔ t.ofInt j = t.ofInt k := by
  constructor
  · intro h
    unfold wholeRank withSign at h
    simp only [decide_eq_true_eq] at h
    have hpos {i : Int} (hi : i < 0) : 0 < t.nearestCode i.natAbs 1 :=
      nearestCode_one_pos (by omega)
    unfold ofInt nearest
    by_cases hj : j < 0
    · have := hpos hj
      by_cases hk : k < 0
      · rw [if_pos hj, if_pos hk] at h
        rw [decide_eq_true hj, decide_eq_true hk,
          show t.nearestCode j.natAbs 1 = t.nearestCode k.natAbs 1 by omega]
      · rw [if_pos hj, if_neg hk] at h
        omega
    · by_cases hk : k < 0
      · have := hpos hk
        rw [if_neg hj, if_pos hk] at h
        omega
      · rw [if_neg hj, if_neg hk] at h
        rw [decide_eq_false hj, decide_eq_false hk,
          show t.nearestCode j.natAbs 1 = t.nearestCode k.natAbs 1 by omega]
  · intro h
    have hrank := t.rank?_ofInt j
    rw [h, rank?_ofInt, Option.some.injEq] at hrank
    exact hrank.symm

/-- Rounding can make two whole numbers equal, but not change which is the lesser. -/
theorem wholeRank_le_iff : t.wholeRank j ≤ t.wholeRank k ↔ j ≤ k ∨ t.ofInt j = t.ofInt k := by
  rw [← wholeRank_eq_iff]
  constructor
  · intro h
    rcases le_or_gt j k with hle | hlt
    · exact .inl hle
    · exact .inr (le_antisymm h (wholeRank_mono hlt.le))
  · rintro (hle | heq)
    · exact wholeRank_mono hle
    · exact heq.le

theorem atMost_iff {x y : t.Bits} (hx : t.rank? x = some j) (hy : t.rank? y = some k) :
    t.atMost x y = true ↔ j ≤ k := by
  unfold atMost
  rw [hx, hy]
  exact decide_eq_true_iff

/-! ## Whole numbers with one pattern -/

/-- On a grid of whole numbers and their parts, a whole number within reach is the value. -/
theorem eq_of_reaches_whole {a : Nat} {narrow : Bool} (hq : q ≤ 0) (h : Reaches m q narrow a) :
    (m : ℚ) * 2 ^ q = a := by
  obtain ⟨p, hp⟩ := Int.eq_ofNat_of_zero_le (by omega : 0 ≤ -q)
  have ha : (a : ℚ) = ((a * 2 ^ p : Nat) : ℚ) * 2 ^ q := by
    rw [Nat.cast_mul, mul_assoc, ← two_zpow_add_natCast, ← hp, add_neg_cancel, zpow_zero, mul_one]
  rw [ha] at h ⊢
  rw [h.eq_of_onGrid]

/-- Two whole numbers are within reach of one value only where the grid is coarser than they are. -/
theorem exponent_pos_of_reaches {a b : Nat} {narrow : Bool} (ha : Reaches m q narrow a)
    (hb : Reaches m q narrow b) (hne : a ≠ b) : 0 < q := by
  by_contra hq
  have hvalue := eq_of_reaches_whole (Int.not_lt.mp hq) ha
  rw [eq_of_reaches_whole (Int.not_lt.mp hq) hb] at hvalue
  exact hne (by exact_mod_cast hvalue.symm)

theorem Fits.le_of_reaches_whole {a : Nat} (h : t.Fits m q) (hq : 0 < q)
    (ha : Reaches m q (t.isNarrow m q) a) : 2 * 2 ^ t.fractionBits ≤ a := by
  have hleast : t.leastExponent ≤ 0 := by cases t <;> decide
  by_contra hlt
  have hself : (a : ℚ) * 2 ^ (0 : Int) = a := by rw [zpow_zero, mul_one]
  -- a lesser number fits the format itself, so it would be the value, which is no less
  have hvalue := h.eq_of_reaches (Nat.not_le.mp hlt) hleast (by rwa [hself])
  rw [hself] at hvalue
  have hlead : ((2 ^ t.fractionBits : Nat) : ℚ) ≤ m := by exact_mod_cast h.leading (by omega)
  have htwo : (2 : ℚ) ^ (1 : Int) ≤ 2 ^ q := zpow_le_zpow_right₀ (by norm_num) (by omega)
  have hbig := mul_le_mul hlead htwo (by positivity) (by positivity)
  rw [hvalue, zpow_one] at hbig
  exact hlt (by exact_mod_cast (mul_comm _ _).trans_le hbig)

/-- The interval of a value is as narrow as its low end is high. -/
theorem Fits.mul_spread_le (h : t.Fits m q) (hq : t.leastExponent < q) :
    ((2 ^ t.fractionBits : Nat) : ℚ) *
      (highEnd m q - lowEnd m q (t.isNarrow m q)) ≤ lowEnd m q (t.isNarrow m q) := by
  have hF : (1 : ℚ) ≤ ((2 ^ t.fractionBits : Nat) : ℚ) := by
    exact_mod_cast Nat.two_pow_pos t.fractionBits
  have hlead : ((2 ^ t.fractionBits : Nat) : ℚ) ≤ m := by exact_mod_cast h.leading hq
  rw [highEnd_sub_lowEnd, lowEnd, ← mul_assoc]
  refine mul_le_mul_of_nonneg_right ?_ (two_zpow_pos (q - 2)).le
  cases hnarrow : t.isNarrow m q with
  | true =>
    simp only [if_true]
    linarith
  | false =>
    have hm := h.succ_le hq hnarrow
    simp only [Bool.false_eq_true, if_false]
    linarith

theorem Fits.mul_dist_le {x y : ℚ} (h : t.Fits m q) (hq : t.leastExponent < q)
    (hx : Reaches m q (t.isNarrow m q) x) (hy : Reaches m q (t.isNarrow m q) y) :
    ((2 ^ t.fractionBits : Nat) : ℚ) * |x - y| ≤ y := by
  have hdist : |x - y| ≤ highEnd m q - lowEnd m q (t.isNarrow m q) := by
    rw [abs_le]
    constructor <;> linarith [hx.low, hx.high, hy.low, hy.high]
  calc ((2 ^ t.fractionBits : Nat) : ℚ) * |x - y|
      ≤ ((2 ^ t.fractionBits : Nat) : ℚ) * (highEnd m q - lowEnd m q (t.isNarrow m q)) :=
        mul_le_mul_of_nonneg_left hdist (by positivity)
    _ ≤ lowEnd m q (t.isNarrow m q) := h.mul_spread_le hq
    _ ≤ y := hy.low

theorem ofInt_ne_zero (h : t.ofInt j = t.ofInt k) (hj : j ≠ 0) : k ≠ 0 := by
  rintro rfl
  have hrank := wholeRank_eq_iff.mpr h
  have hpos : 0 < t.nearestCode j.natAbs 1 := nearestCode_one_pos (Int.natAbs_pos.mpr hj)
  have hzero : t.wholeRank 0 = 0 := by cases t <;> rfl
  rw [hzero] at hrank
  unfold wholeRank withSign at hrank
  split at hrank <;> omega

/-- Whole numbers that one pattern is nearest to lie above twice the leading bit, and nearer to
each other than one of them to zero, by as many bits as a fraction has. -/
theorem ofInt_merges (hk : (k.natAbs : ℚ) <
      ((2 ^ t.fractionBits : Nat) : ℚ) * 2 ^ (t.leastExponent + t.topExponent - 2))
    (h : t.ofInt j = t.ofInt k) (hne : j ≠ k) :
    ((2 * 2 ^ t.fractionBits : Nat) : Int) ≤ |j| ∧ ((2 * 2 ^ t.fractionBits : Nat) : Int) ≤ |k| ∧
      ((2 ^ t.fractionBits : Nat) : Int) * |j - k| ≤ |k| := by
  -- zero shares its pattern with no other number, so both have a sign
  have hne' : j ≠ 0 ∧ k ≠ 0 := by
    by_cases hj : j = 0
    · exact absurd hj (ofInt_ne_zero h.symm fun hk => hne (hj.trans hk.symm))
    · exact ⟨hj, ofInt_ne_zero h hj⟩
  have hjpos := Int.natAbs_pos.mpr hne'.1
  have hkpos := Int.natAbs_pos.mpr hne'.2
  obtain ⟨m, q, hdecode, hfits, hreach⟩ :=
    t.exists_decode_nearest (k < 0) hkpos Nat.one_pos (by rwa [Nat.cast_one, div_one])
  obtain ⟨hsign, hreach'⟩ := (nearest_eq_iff hdecode hjpos Nat.one_pos).mp h
  rw [narrowBelow_eq hdecode, Nat.cast_one, div_one] at hreach'
  rw [Nat.cast_one, div_one] at hreach
  have hsame : |j - k| = |(j.natAbs : Int) - k.natAbs| := by
    rw [← abs_withSign_sub (k < 0), withSign_natAbs hsign, withSign_natAbs rfl]
  have habs : j.natAbs ≠ k.natAbs := by
    intro heq
    rw [heq, sub_self, abs_zero, abs_eq_zero, sub_eq_zero] at hsame
    exact hne hsame
  have hq := exponent_pos_of_reaches hreach' hreach habs
  have hleast : t.leastExponent ≤ 0 := by cases t <;> decide
  have hnear := hfits.mul_dist_le (by omega) hreach' hreach
  rw [← Int.natCast_natAbs j, ← Int.natCast_natAbs k, hsame]
  refine ⟨by exact_mod_cast hfits.le_of_reaches_whole hq hreach',
    by exact_mod_cast hfits.le_of_reaches_whole hq hreach, ?_⟩
  have hspread : (((2 ^ t.fractionBits : Nat) : Int) : ℚ) *
      ((|(j.natAbs : Int) - k.natAbs| : Int) : ℚ) ≤ ((k.natAbs : Int) : ℚ) := by
    rw [Int.cast_abs, Int.cast_sub]
    simpa only [Int.cast_natCast] using hnear
  exact_mod_cast hspread

end FloatType

end BusCompliance
