import BusCompliance.Number.FloatType
import BusCompliance.Proofs.Number.Reach

/-!
# Rounding to the nearest value of a format

A format rounds a quotient to exactly that one of its values whose reach the quotient is in, also
where the nearest whole number carries over into the next binade.
-/

namespace BusCompliance

namespace FloatType

variable {t : FloatType} {m m' num den : Nat} {q q' : Int}

/-! ## The steps of a rounding -/

theorem isNearest_roundDiv (num : Nat) (hd : 0 < den) :
    IsNearest ((num : ℚ) / den) (roundDiv num den) := by
  have hdiv := Nat.div_add_mod num den
  have hlt := Nat.mod_lt num hd
  have hcross : 2 * roundDiv num den * den ≤ 2 * num + den ∧
      2 * num ≤ 2 * roundDiv num den * den + den ∧
      (2 * num + den = 2 * roundDiv num den * den ∨ 2 * num = 2 * roundDiv num den * den + den →
        roundDiv num den % 2 = 0) := by
    unfold roundDiv
    generalize num / den = k at *
    generalize num % den = s at *
    have hup : 2 * (k + 1) * den = 2 * (den * k) + 2 * den := by ring
    have hdown : 2 * k * den = 2 * (den * k) := by ring
    dsimp only
    split_ifs <;> first | rw [hup] | rw [hdown]
    all_goals omega
  obtain ⟨h1, h2, h3⟩ := hcross
  have hd' : (0 : ℚ) < den := by exact_mod_cast hd
  have hv : 2 * ((num : ℚ) / den) * den = 2 * num := by field_simp
  have c1 : 2 * (roundDiv num den : ℚ) * den ≤ 2 * num + den := by exact_mod_cast h1
  have c2 : 2 * (num : ℚ) ≤ 2 * roundDiv num den * den + den := by exact_mod_cast h2
  refine ⟨?_, ?_, fun h => h3 ?_⟩
  · exact le_of_mul_le_mul_right (by linarith) hd'
  · exact le_of_mul_le_mul_right (by linarith) hd'
  · rcases h with h | h <;> rw [h] at hv
    · exact .inl (by exact_mod_cast (by linarith : 2 * (num : ℚ) + den = 2 * roundDiv num den * den))
    · exact .inr (by exact_mod_cast (by linarith : 2 * (num : ℚ) = 2 * roundDiv num den * den + den))

theorem two_zpow_le_div_iff (hd : 0 < den) (e : Int) :
    (2 : ℚ) ^ e ≤ num / den ↔ den * 2 ^ e.toNat ≤ num * 2 ^ (-e).toNat := by
  have hd' : (0 : ℚ) < den := by exact_mod_cast hd
  have hp : (0 : ℚ) < ((2 ^ (-e).toNat : Nat) : ℚ) := by positivity
  have hpow := cast_pow_div_cast_pow 2 e
  rw [Nat.cast_ofNat] at hpow
  rw [← hpow, div_le_div_iff₀ hp hd', mul_comm]
  exact_mod_cast Iff.rfl

theorem binaryExponent_spec (hn : 0 < num) (hd : 0 < den) :
    (2 : ℚ) ^ binaryExponent num den ≤ num / den ∧
    (num : ℚ) / den < 2 ^ (binaryExponent num den + 1) := by
  have hd' : (0 : ℚ) < den := by exact_mod_cast hd
  have natLow {n : Nat} (h : 0 < n) : (2 : ℚ) ^ (n.log2 : Int) ≤ n := by
    rw [zpow_natCast]; exact_mod_cast Nat.log2_self_le h.ne'
  have natHigh (n : Nat) : (n : ℚ) < 2 ^ ((n.log2 : Int) + 1) := by
    rw [← Nat.cast_add_one, zpow_natCast]; exact_mod_cast Nat.lt_log2_self
  have hlow : (2 : ℚ) ^ ((num.log2 : Int) - den.log2 - 1) ≤ num / den := by
    rw [le_div_iff₀ hd']
    calc (2 : ℚ) ^ ((num.log2 : Int) - den.log2 - 1) * den
        ≤ 2 ^ ((num.log2 : Int) - den.log2 - 1) * 2 ^ ((den.log2 : Int) + 1) :=
          mul_le_mul_of_nonneg_left (natHigh den).le (two_zpow_pos _).le
      _ = 2 ^ (num.log2 : Int) := by rw [← zpow_add₀ (by norm_num)]; congr 1; ring
      _ ≤ num := natLow hn
  have hhigh : (num : ℚ) / den < 2 ^ ((num.log2 : Int) - den.log2 + 1) := by
    rw [div_lt_iff₀ hd']
    calc (num : ℚ) < 2 ^ ((num.log2 : Int) + 1) := natHigh num
      _ = 2 ^ ((num.log2 : Int) - den.log2 + 1) * 2 ^ (den.log2 : Int) := by
          rw [← zpow_add₀ (by norm_num)]; congr 1; ring
      _ ≤ 2 ^ ((num.log2 : Int) - den.log2 + 1) * den :=
          mul_le_mul_of_nonneg_left (natLow hd) (two_zpow_pos _).le
  unfold binaryExponent
  dsimp only
  split
  · rename_i h
    exact ⟨(two_zpow_le_div_iff hd _).mpr h, hhigh⟩
  · rename_i h
    rw [← two_zpow_le_div_iff hd, not_le] at h
    exact ⟨hlow, by rwa [sub_add_cancel]⟩

/-! ## The values of a format -/

/-- `m * 2^q` is a value of the format in the form that `decode` gives it. -/
structure Fits (t : FloatType) (m : Nat) (q : Int) : Prop where
  lt : m < 2 * 2 ^ t.fractionBits
  least_le : t.leastExponent ≤ q
  leading : t.leastExponent < q → 2 ^ t.fractionBits ≤ m

/-- The pattern of `m * 2^q`, without the sign. -/
def code (t : FloatType) (m : Nat) (q : Int) : Nat :=
  (q - t.leastExponent).toNat * 2 ^ t.fractionBits + m

/-- The value below `m * 2^q` is in the binade below, where the gaps are half as wide. -/
def isNarrow (t : FloatType) (m : Nat) (q : Int) : Bool :=
  m = 2 ^ t.fractionBits ∧ t.leastExponent < q

/-- A greater exponent adds a whole binade, and the lesser `m` stays below two of them. -/
theorem Fits.code_lt (h : t.Fits m q) (h' : t.Fits m' q') (hlt : q < q') :
    t.code m q < t.code m' q' := by
  have hstep : (q - t.leastExponent).toNat + 1 ≤ (q' - t.leastExponent).toNat := by
    have := h.least_le
    omega
  have hmul := Nat.mul_le_mul_right (2 ^ t.fractionBits) hstep
  have hlead := h'.leading (lt_of_le_of_lt h.least_le hlt)
  have hm := h.lt
  rw [Nat.add_mul, Nat.one_mul] at hmul
  unfold code
  omega

theorem Fits.unique (h : t.Fits m q) (h' : t.Fits m' q') (hc : t.code m q = t.code m' q') :
    m = m' ∧ q = q' := by
  obtain rfl : q = q' := by
    rcases Int.lt_trichotomy q q' with hlt | heq | hgt
    · exact absurd hc (h.code_lt h' hlt).ne
    · exact heq
    · exact absurd hc (h'.code_lt h hgt).ne'
  exact ⟨by unfold code at hc; omega, rfl⟩

/-! ## Rounding as a whole -/

theorem reaches_roundDiv (num : Nat) (hd : 0 < den) (q : Int) :
    Reaches (roundDiv (num * 2 ^ (-q).toNat) (den * 2 ^ q.toNat)) q false ((num : ℚ) / den) := by
  have h := isNearest_roundDiv (num * 2 ^ (-q).toNat) (Nat.mul_pos hd (Nat.two_pow_pos q.toNat))
  have hpow := cast_pow_div_cast_pow 2 q
  rw [Nat.cast_ofNat] at hpow
  rwa [← isNearest_div_iff, ← hpow, div_div_div_eq, ← Nat.cast_mul, ← Nat.cast_mul]

/-- Rounding takes the exponent from the size of the quotient. The whole number that it finds there
may be one binade too many, by a carry. -/
structure Rounds (t : FloatType) (v : ℚ) (r : Nat) (q : Int) : Prop where
  least_le : t.leastExponent ≤ q
  reaches : Reaches r q false v
  le : r ≤ 2 * 2 ^ t.fractionBits
  leading : t.leastExponent < q → ((2 ^ t.fractionBits : Nat) : ℚ) * 2 ^ q ≤ v
  lt : v < 2 * ((2 ^ t.fractionBits : Nat) : ℚ) * 2 ^ q

theorem exists_rounds (t : FloatType) (hn : 0 < num) (hd : 0 < den) :
    ∃ r q, t.Rounds ((num : ℚ) / den) r q ∧
      t.nearestCode num den = min (t.code r q) t.infinityCode := by
  obtain ⟨hlow, hhigh⟩ := binaryExponent_spec hn hd
  have hq : ∃ q, q = max (binaryExponent num den - t.fractionBits) t.leastExponent := ⟨_, rfl⟩
  obtain ⟨q, hq⟩ := hq
  have hreach := reaches_roundDiv num hd q
  have hlt : (num : ℚ) / den < 2 * ((2 ^ t.fractionBits : Nat) : ℚ) * 2 ^ q := by
    rw [mul_assoc, ← two_zpow_add_natCast, ← two_zpow_succ]
    exact hhigh.trans_le (zpow_le_zpow_right₀ (by norm_num) (by omega))
  refine ⟨roundDiv (num * 2 ^ (-q).toNat) (den * 2 ^ q.toNat), q,
    ⟨by omega, hreach, ?_, ?_, hlt⟩, ?_⟩
  · have hp := two_zpow_pos (q - 2)
    have hend := hreach.low.trans_lt hlt
    rw [lowEnd, four_mul_two_zpow q, ← mul_assoc] at hend
    have hend := lt_of_mul_lt_mul_right hend hp.le
    simp only [Bool.false_eq_true, if_false] at hend
    generalize roundDiv (num * 2 ^ (-q).toNat) (den * 2 ^ q.toNat) = r at *
    have hr : (4 * r : ℚ) < ((8 * 2 ^ t.fractionBits + 2 : Nat) : ℚ) := by
      rw [Nat.cast_add, Nat.cast_mul, Nat.cast_ofNat, Nat.cast_ofNat]
      linarith
    have hr : 4 * r < 8 * 2 ^ t.fractionBits + 2 := by exact_mod_cast hr
    omega
  · intro hleast
    rw [← two_zpow_add_natCast]
    exact (zpow_le_zpow_right₀ (by norm_num) (by omega)).trans hlow
  · rw [nearestCode, if_neg hn.ne', hq]
    rfl

theorem Rounds.leading_le {v : ℚ} (h : t.Rounds v m q) (hq : t.leastExponent < q) :
    2 ^ t.fractionBits ≤ m := by
  have hend := (h.leading hq).trans h.reaches.high
  rw [highEnd, four_mul_two_zpow q, ← mul_assoc] at hend
  have hend := le_of_mul_le_mul_right hend (two_zpow_pos (q - 2))
  have hm : ((2 ^ t.fractionBits * 4 : Nat) : ℚ) ≤ ((4 * m + 2 : Nat) : ℚ) := by
    push_cast at hend ⊢; linarith
  have hm : 2 ^ t.fractionBits * 4 ≤ 4 * m + 2 := by exact_mod_cast hm
  omega

/-- A carry gives the first value of the next binade. -/
theorem code_carry (hq : t.leastExponent ≤ q) :
    t.code (2 * 2 ^ t.fractionBits) q = t.code (2 ^ t.fractionBits) (q + 1) := by
  have hstep : (q + 1 - t.leastExponent).toNat = (q - t.leastExponent).toNat + 1 := by omega
  rw [code, code, hstep, Nat.add_mul]
  omega

theorem two_pow_fractionBits_even (t : FloatType) : 2 ^ t.fractionBits % 2 = 0 := by
  cases t <;> rfl

theorem isNarrow_iff : t.isNarrow m q = true ↔ m = 2 ^ t.fractionBits ∧ t.leastExponent < q := by
  simp [isNarrow]

theorem Fits.succ_le (h : t.Fits m q) (hq : t.leastExponent < q)
    (hnarrow : t.isNarrow m q = false) : ((2 ^ t.fractionBits : Nat) : ℚ) + 1 ≤ m := by
  have hne : m ≠ 2 ^ t.fractionBits := fun he => by
    rw [isNarrow_iff.mpr ⟨he, hq⟩] at hnarrow
    exact absurd hnarrow (by decide)
  have hlead := h.leading hq
  exact_mod_cast (by omega : 2 ^ t.fractionBits + 1 ≤ m)

/-- The outcome is a value of the format that the quotient is within reach of. -/
theorem Rounds.code_eq {v : ℚ} (h : t.Rounds v m q) :
    ∃ m' q', t.Fits m' q' ∧ t.code m q = t.code m' q' ∧ Reaches m' q' (t.isNarrow m' q') v := by
  rcases Nat.lt_or_eq_of_le h.le with hlt | rfl
  · refine ⟨m, q, ⟨hlt, h.least_le, h.leading_le⟩, rfl, ?_⟩
    cases hnarrow : t.isNarrow m q with
    | false => exact h.reaches
    | true =>
      -- Nothing below the first value of a binade takes the exponent of that binade.
      obtain ⟨rfl, hq⟩ := isNarrow_iff.mp hnarrow
      exact h.reaches.of_le (h.leading hq)
  · have hq : t.leastExponent < q + 1 := Int.lt_add_one_of_le h.least_le
    have hF := Nat.two_pow_pos t.fractionBits
    have hbelow : v < ((2 ^ t.fractionBits : Nat) : ℚ) * 2 ^ (q + 1) := by
      rw [two_zpow_succ]
      linarith [h.lt]
    refine ⟨2 ^ t.fractionBits, q + 1, ⟨by omega, hq.le, fun _ => le_rfl⟩, code_carry h.least_le, ?_⟩
    rw [isNarrow_iff.mpr ⟨rfl, hq⟩, reaches_narrow_iff t.two_pow_fractionBits_even hbelow,
      add_sub_cancel_right]
    exact h.reaches

theorem Rounds.exponent_eq {v : ℚ} (h : t.Rounds v m q') (hleast : t.leastExponent ≤ q)
    (hlead : t.leastExponent < q → ((2 ^ t.fractionBits : Nat) : ℚ) * 2 ^ q ≤ v)
    (hlt : v < 2 * ((2 ^ t.fractionBits : Nat) : ℚ) * 2 ^ q) : q' = q := by
  have hF : (0 : ℚ) < ((2 ^ t.fractionBits : Nat) : ℚ) := by exact_mod_cast Nat.two_pow_pos _
  have key {a b : Int} (h1 : ((2 ^ t.fractionBits : Nat) : ℚ) * 2 ^ a ≤ v)
      (h2 : v < 2 * ((2 ^ t.fractionBits : Nat) : ℚ) * 2 ^ b) : a < b + 1 := by
    apply lt_of_two_zpow_lt
    rw [two_zpow_succ]
    exact lt_of_mul_lt_mul_left (by linarith) hF.le
  have hl := h.least_le
  rcases Int.lt_trichotomy q' q with hgt | heq | hgt
  · have := key (hlead (by omega)) h.lt
    omega
  · exact heq
  · have := key (h.leading (by omega)) hlt
    omega

theorem highEnd_lt {q : Int} (hm : m < 2 * 2 ^ t.fractionBits) :
    highEnd m q < 2 * ((2 ^ t.fractionBits : Nat) : ℚ) * 2 ^ q := by
  have hp := two_zpow_pos (q - 2)
  have hm : (m : ℚ) + 1 ≤ 2 * ((2 ^ t.fractionBits : Nat) : ℚ) := by exact_mod_cast hm
  rw [highEnd, four_mul_two_zpow q, ← mul_assoc]
  exact mul_lt_mul_of_pos_right (by linarith) hp

theorem Rounds.code_eq_of_reaches {v : ℚ} {r : Nat} (h : t.Rounds v r q') (hfits : t.Fits m q)
    (hv : Reaches m q (t.isNarrow m q) v) : t.code r q' = t.code m q := by
  have hp := two_zpow_pos (q - 2)
  have hF : ((1 : Nat) : ℚ) ≤ ((2 ^ t.fractionBits : Nat) : ℚ) := by
    exact_mod_cast Nat.two_pow_pos t.fractionBits
  rw [Nat.cast_one] at hF
  have hlt := hv.high.trans_lt (highEnd_lt (q := q) hfits.lt)
  cases hnarrow : t.isNarrow m q with
  | false =>
    rw [hnarrow] at hv
    obtain rfl : q' = q := by
      refine h.exponent_eq hfits.least_le (fun hq => ?_) hlt
      have hm := hfits.succ_le hq hnarrow
      refine le_trans ?_ hv.low
      rw [four_mul_two_zpow q, ← mul_assoc, lowEnd]
      refine mul_le_mul_of_nonneg_right ?_ hp.le
      simp only [Bool.false_eq_true, if_false]
      linarith
    rw [h.reaches.unique hv]
  | true =>
    obtain ⟨rfl, hq⟩ := isNarrow_iff.mp hnarrow
    rw [hnarrow] at hv
    rcases lt_or_ge v (((2 ^ t.fractionBits : Nat) : ℚ) * 2 ^ q) with hbelow | habove
    · -- Below the first value of the binade the exponent is one less.
      have hlow := hv.low
      have heq : q' = q - 1 := by
        refine h.exponent_eq (by omega) (fun _ => ?_) ?_
        · refine le_trans ?_ hlow
          rw [two_mul_two_zpow, lowEnd, if_pos rfl, ← mul_assoc]
          exact mul_le_mul_of_nonneg_right (by linarith) hp.le
        · rw [two_zpow_pred q] at hbelow
          linarith
      subst heq
      have hcarry := (reaches_narrow_iff t.two_pow_fractionBits_even hbelow).mp hv
      rw [h.reaches.unique hcarry, code_carry (by omega), sub_add_cancel]
    · obtain rfl : q' = q := h.exponent_eq hfits.least_le (fun _ => habove) hlt
      rw [h.reaches.unique (hv.of_le habove)]

/-- Nothing that the format could hold on a finer grid is within reach of its values. -/
theorem Fits.not_reaches {n : Nat} {s : Int} (h : t.Fits m q) (hn : n < 2 * 2 ^ t.fractionBits)
    (hs : t.leastExponent ≤ s) (hsq : s < q) : ¬Reaches m q (t.isNarrow m q) (n * 2 ^ s) := by
  intro hreach
  have hp := two_zpow_pos (q - 2)
  have hq : t.leastExponent < q := by omega
  have hn : (n : ℚ) + 1 ≤ 2 * ((2 ^ t.fractionBits : Nat) : ℚ) := by exact_mod_cast hn
  have hbound : (n : ℚ) * 2 ^ s ≤ (4 * ((2 ^ t.fractionBits : Nat) : ℚ) - 2) * 2 ^ (q - 2) := by
    have hgrid : (2 : ℚ) ^ s ≤ 2 * 2 ^ (q - 2) := by
      rw [← two_mul_two_zpow]
      exact zpow_le_zpow_right₀ (by norm_num) (by omega)
    calc (n : ℚ) * 2 ^ s ≤ n * (2 * 2 ^ (q - 2)) := mul_le_mul_of_nonneg_left hgrid (by positivity)
      _ = (2 * n) * 2 ^ (q - 2) := by ring
      _ ≤ _ := mul_le_mul_of_nonneg_right (by linarith) hp.le
  have hlow := le_of_mul_le_mul_right (hreach.low.trans hbound) hp
  cases hnarrow : t.isNarrow m q with
  | true =>
    obtain ⟨rfl, -⟩ := isNarrow_iff.mp hnarrow
    rw [hnarrow, if_pos rfl] at hlow
    linarith
  | false =>
    have hm := h.succ_le hq hnarrow
    rw [hnarrow] at hlow
    simp only [Bool.false_eq_true, if_false] at hlow
    linarith

/-- Of what the format can hold only the value itself is within its reach. -/
theorem Fits.eq_of_reaches {n : Nat} {s : Int} (h : t.Fits m q) (hn : n < 2 * 2 ^ t.fractionBits)
    (hs : t.leastExponent ≤ s) (hreach : Reaches m q (t.isNarrow m q) (n * 2 ^ s)) :
    (m : ℚ) * 2 ^ q = n * 2 ^ s := by
  rcases Int.lt_or_le s q with hsq | hsq
  · exact absurd hreach (h.not_reaches hn hs hsq)
  · obtain ⟨k, rfl⟩ := Int.le.dest hsq
    rw [two_zpow_add_natCast, ← mul_assoc, ← Nat.cast_mul] at hreach ⊢
    rw [hreach.eq_of_onGrid]

/-- Rounding does not pass by what the format can hold. -/
theorem Fits.le_of_reaches {n : Nat} {s : Int} {x : ℚ} (h : t.Fits m q)
    (hn : n < 2 * 2 ^ t.fractionBits) (hs : t.leastExponent ≤ s)
    (hreach : Reaches m q (t.isNarrow m q) x) (hx : (n : ℚ) * 2 ^ s ≤ x) :
    (n : ℚ) * 2 ^ s ≤ m * 2 ^ q := by
  by_contra hlt
  rw [not_le] at hlt
  exact hlt.ne (h.eq_of_reaches hn hs ((Reaches.self m q _).between hreach hlt.le hx))

theorem Fits.ge_of_reaches {n : Nat} {s : Int} {x : ℚ} (h : t.Fits m q)
    (hn : n < 2 * 2 ^ t.fractionBits) (hs : t.leastExponent ≤ s)
    (hreach : Reaches m q (t.isNarrow m q) x) (hx : x ≤ (n : ℚ) * 2 ^ s) :
    (m : ℚ) * 2 ^ q ≤ n * 2 ^ s := by
  by_contra hlt
  rw [not_le] at hlt
  exact hlt.ne' (h.eq_of_reaches hn hs (hreach.between (Reaches.self m q _) hx hlt.le))

/-- Exactly the quotients within reach of a value round to it. -/
theorem nearestCode_eq_code_iff (hn : 0 < num) (hd : 0 < den) (hfits : t.Fits m q)
    (hlt : t.code m q < t.infinityCode) :
    t.nearestCode num den = t.code m q ↔ Reaches m q (t.isNarrow m q) ((num : ℚ) / den) := by
  obtain ⟨r, e, hrounds, hcode⟩ := t.exists_rounds hn hd
  constructor
  · intro h
    obtain ⟨m', q', hfits', hcode', hreach⟩ := hrounds.code_eq
    obtain ⟨rfl, rfl⟩ := hfits.unique hfits' (by omega)
    exact hreach
  · intro h
    rw [hcode, hrounds.code_eq_of_reaches hfits h]
    omega

end FloatType

end BusCompliance
