import BusCompliance.Proofs.Number.Rounding

/-!
# Patterns and their values

A finite pattern is a sign and a value in the one form that fits the format. Rounding returns
exactly the pattern whose reach holds the quotient.
-/

namespace BusCompliance

namespace FloatType

variable {t : FloatType} {bits : t.Bits} {negative negative' : Bool} {m num den : Nat} {q : Int}

/-! ## Sign and magnitude -/

theorem two_pow_width (t : FloatType) : 2 ^ t.width = 2 * 2 ^ (t.width - 1) := by
  cases t <;> rfl

theorem two_pow_pred_width (t : FloatType) :
    2 ^ (t.width - 1) = t.infinityCode + 2 ^ t.fractionBits := by
  cases t <;> rfl

theorem magnitude_lt (t : FloatType) (bits : t.Bits) : t.magnitude bits < 2 ^ (t.width - 1) :=
  Nat.mod_lt _ (Nat.two_pow_pos _)

theorem toNat_ofNat_signCode (t : FloatType) (negative : Bool) {c : Nat}
    (h : c < 2 ^ (t.width - 1)) :
    (BitVec.ofNat t.width (t.signCode negative + c)).toNat = t.signCode negative + c := by
  have hw := t.two_pow_width
  rw [BitVec.toNat_ofNat, Nat.mod_eq_of_lt]
  cases negative <;> simp [signCode] <;> omega

theorem magnitude_ofNat (t : FloatType) (negative : Bool) {c : Nat} (h : c < 2 ^ (t.width - 1)) :
    t.magnitude (BitVec.ofNat t.width (t.signCode negative + c)) = c := by
  rw [magnitude, toNat_ofNat_signCode t negative h]
  cases negative <;> simp [signCode, Nat.mod_eq_of_lt h]

theorem isNegative_ofNat (t : FloatType) (negative : Bool) {c : Nat} (h : c < 2 ^ (t.width - 1)) :
    t.isNegative (BitVec.ofNat t.width (t.signCode negative + c)) = negative := by
  rw [isNegative, toNat_ofNat_signCode t negative h]
  cases negative <;> simp [signCode, h]

theorem ofNat_magnitude (t : FloatType) (bits : t.Bits) :
    BitVec.ofNat t.width (t.signCode (t.isNegative bits) + t.magnitude bits) = bits := by
  apply BitVec.eq_of_toNat_eq
  have hlt := bits.isLt
  have hw := t.two_pow_width
  rw [toNat_ofNat_signCode t _ (t.magnitude_lt bits)]
  unfold isNegative magnitude signCode
  by_cases h : 2 ^ (t.width - 1) ≤ bits.toNat
  · simp only [h, decide_true, if_true]
    rw [Nat.mod_eq_sub_mod h, Nat.mod_eq_of_lt (by omega)]
    omega
  · simp only [h, decide_false, Bool.false_eq_true, if_false]
    rw [Nat.mod_eq_of_lt (by omega), Nat.zero_add]

/-! ## Finite patterns -/

/-- A pattern below infinity is finite, with its value in the form of the format. -/
theorem decode_of_lt (h : t.magnitude bits < t.infinityCode) :
    ∃ m q, t.decode bits = .finite (t.isNegative bits) m q ∧ t.Fits m q ∧
      t.code m q = t.magnitude bits := by
  have hF := Nat.two_pow_pos t.fractionBits
  have hdiv := Nat.div_add_mod (t.magnitude bits) (2 ^ t.fractionBits)
  have hmod := Nat.mod_lt (t.magnitude bits) hF
  have htop : t.magnitude bits / 2 ^ t.fractionBits ≠ t.topExponent :=
    (Nat.div_lt_of_lt_mul (by rwa [Nat.mul_comm])).ne
  unfold decode
  dsimp only
  rw [if_neg htop]
  rw [Nat.mul_comm] at hdiv
  generalize t.magnitude bits / 2 ^ t.fractionBits = e at *
  split
  · rename_i he
    refine ⟨_, _, rfl, ⟨by omega, le_rfl, fun hlt => absurd hlt (lt_irrefl _)⟩, ?_⟩
    rw [he] at hdiv
    rw [code, Int.sub_self, Int.toNat_zero]
    exact hdiv
  · rename_i he
    refine ⟨_, _, rfl, ⟨by omega, by omega, fun _ => by omega⟩, ?_⟩
    have hstep : (t.leastExponent + e - 1 - t.leastExponent).toNat + 1 = e := by omega
    rw [code, ← Nat.add_assoc, ← Nat.succ_mul, Nat.succ_eq_add_one, hstep, hdiv]

theorem lt_of_decode (h : t.decode bits = .finite negative m q) :
    t.magnitude bits < t.infinityCode := by
  have hw := t.two_pow_pred_width
  have hlt := t.magnitude_lt bits
  by_contra hge
  have htop : t.magnitude bits / 2 ^ t.fractionBits = t.topExponent := by
    apply Nat.div_eq_of_lt_le
    · exact Nat.not_lt.mp hge
    · rw [Nat.succ_mul]
      exact hlt.trans_eq hw
  unfold decode at h
  dsimp only at h
  rw [if_pos htop] at h
  split at h <;> cases h

theorem decode_eq_finite_iff :
    t.decode bits = .finite negative m q ↔
      t.isNegative bits = negative ∧ t.Fits m q ∧ t.code m q = t.magnitude bits ∧
        t.magnitude bits < t.infinityCode := by
  constructor
  · intro h
    have hlt := lt_of_decode h
    obtain ⟨m', q', h', hfits, hcode⟩ := decode_of_lt hlt
    cases h.symm.trans h'
    exact ⟨rfl, hfits, hcode, hlt⟩
  · rintro ⟨rfl, hfits, hcode, hlt⟩
    obtain ⟨m', q', h', hfits', hcode'⟩ := decode_of_lt hlt
    obtain ⟨rfl, rfl⟩ := hfits.unique hfits' (hcode.trans hcode'.symm)
    exact h'

theorem exponent_lt (h : t.decode bits = .finite negative m q) :
    q < t.leastExponent + t.topExponent := by
  obtain ⟨-, hfits, hcode, hlt⟩ := decode_eq_finite_iff.mp h
  have hleast := hfits.least_le
  rw [← hcode, code, infinityCode] at hlt
  have hlt := Nat.lt_of_mul_lt_mul_right ((Nat.le_add_right _ m).trans_lt hlt)
  omega

theorem narrowBelow_eq (h : t.decode bits = .finite negative m q) :
    t.narrowBelow bits = t.isNarrow m q := by
  obtain ⟨-, hfits, hcode, -⟩ := decode_eq_finite_iff.mp h
  have hF := Nat.two_pow_pos t.fractionBits
  have hlt := hfits.lt
  have hleast := hfits.least_le
  have hsplit : t.magnitude bits = m + 2 ^ t.fractionBits * (q - t.leastExponent).toNat := by
    rw [← hcode, code, Nat.mul_comm, Nat.add_comm]
  rw [narrowBelow, hsplit, Nat.add_mul_mod_self_left, Nat.add_mul_div_left _ _ hF, isNarrow]
  rcases Nat.lt_or_ge m (2 ^ t.fractionBits) with hm | hm
  · have hq : ¬t.leastExponent < q := fun h => absurd (hfits.leading h) (Nat.not_le.mpr hm)
    have hone : ¬1 < 0 + (q - t.leastExponent).toNat := by omega
    rw [Nat.div_eq_of_lt hm, decide_eq_false hone, Bool.and_false]
    exact (decide_eq_false fun h => hq h.2).symm
  · have hone : m / 2 ^ t.fractionBits = 1 := Nat.div_eq_of_lt_le (by omega) (by omega)
    rw [hone, Nat.mod_eq_sub_mod hm, Nat.mod_eq_of_lt (by omega), ← Bool.decide_and]
    exact decide_eq_decide.mpr (by omega)

/-! ## The pattern of a quotient -/

theorem nearestCode_le (t : FloatType) (num den : Nat) : t.nearestCode num den ≤ t.infinityCode := by
  unfold nearestCode
  split
  · exact Nat.zero_le _
  · exact Nat.min_le_right _ _

theorem nearestCode_lt_two_pow (t : FloatType) (num den : Nat) :
    t.nearestCode num den < 2 ^ (t.width - 1) := by
  have hF := Nat.two_pow_pos t.fractionBits
  have hle := t.nearestCode_le num den
  have hw := t.two_pow_pred_width
  omega

theorem magnitude_nearest (t : FloatType) (negative : Bool) (num den : Nat) :
    t.magnitude (t.nearest negative num den) = t.nearestCode num den :=
  t.magnitude_ofNat negative (t.nearestCode_lt_two_pow num den)

theorem isNegative_nearest (t : FloatType) (negative : Bool) (num den : Nat) :
    t.isNegative (t.nearest negative num den) = negative :=
  t.isNegative_ofNat negative (t.nearestCode_lt_two_pow num den)

/-- A quotient rounds to a finite pattern of its sign exactly if it is within reach of its value. -/
theorem nearest_eq_iff (h : t.decode bits = .finite negative m q) (hn : 0 < num) (hd : 0 < den) :
    t.nearest negative' num den = bits ↔
      negative' = negative ∧ Reaches m q (t.narrowBelow bits) ((num : ℚ) / den) := by
  rw [narrowBelow_eq h]
  obtain ⟨rfl, hfits, hcode, hlt⟩ := decode_eq_finite_iff.mp h
  rw [← nearestCode_eq_code_iff hn hd hfits (hcode ▸ hlt), hcode]
  constructor
  · rintro rfl
    rw [isNegative_nearest, magnitude_nearest]
    exact ⟨rfl, rfl⟩
  · rintro ⟨rfl, hnear⟩
    rw [nearest, hnear, ofNat_magnitude]

theorem Rounds.code_lt {v : ℚ} (h : t.Rounds v m q)
    (hlt : v < ((2 ^ t.fractionBits : Nat) : ℚ) * 2 ^ (t.leastExponent + t.topExponent - 2)) :
    t.code m q < t.infinityCode := by
  have hF := Nat.two_pow_pos t.fractionBits
  have hle := h.le
  have htop : 3 ≤ t.topExponent := by cases t <;> decide
  have hq : (q - t.leastExponent).toNat + 3 ≤ t.topExponent := by
    rcases h.least_le.lt_or_eq with hq | hq
    · have hF : (0 : ℚ) < ((2 ^ t.fractionBits : Nat) : ℚ) := by exact_mod_cast hF
      have := lt_of_two_zpow_lt (lt_of_mul_lt_mul_left ((h.leading hq).trans_lt hlt) hF.le)
      omega
    · omega
  have hmul := Nat.mul_le_mul_right (2 ^ t.fractionBits) hq
  rw [Nat.add_mul] at hmul
  rw [code, infinityCode]
  omega

/-- A quotient well below the largest value of the format rounds to a finite pattern. -/
theorem exists_decode_nearest (t : FloatType) (negative : Bool) (hn : 0 < num) (hd : 0 < den)
    (hlt : (num : ℚ) / den <
      ((2 ^ t.fractionBits : Nat) : ℚ) * 2 ^ (t.leastExponent + t.topExponent - 2)) :
    ∃ m q, t.decode (t.nearest negative num den) = .finite negative m q ∧ t.Fits m q ∧
      Reaches m q (t.isNarrow m q) ((num : ℚ) / den) := by
  have hF := Nat.two_pow_pos t.fractionBits
  have hcode : t.nearestCode num den < t.infinityCode := by
    obtain ⟨r, q, hrounds, hr⟩ := t.exists_rounds hn hd
    have hsmall := hrounds.code_lt hlt
    omega
  rw [← magnitude_nearest t negative] at hcode
  obtain ⟨m, q, hdecode, hfits, -⟩ := decode_of_lt hcode
  rw [isNegative_nearest] at hdecode
  refine ⟨m, q, hdecode, hfits, ?_⟩
  rw [← narrowBelow_eq hdecode]
  exact ((nearest_eq_iff hdecode hn hd).mp rfl).2

end FloatType

end BusCompliance
