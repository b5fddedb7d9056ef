import BusCompliance.Proofs.Number.Pattern
import BusCompliance.Proofs.Number.Shortest
import Mathlib.Data.Nat.Prime.Basic

/-!
# Whole numbers spelled by a single

Beyond `2^24` a single is a whole number with a gap of two or more around it, and its shortest
decimal is some whole number of that gap: the one that ends in the most zeros, and of those the
nearest.
-/

namespace BusCompliance

namespace FloatType

variable {bits : FloatType.f32.Bits} {negative : Bool} {m : Nat} {q : Int} {i k : Int}

/-- The whole number `k` is what the single of exact value `i` is written as: it rounds to the
single, no other that does ends in more zeros, and none that ends in as many is as near. -/
structure Spells (bits : FloatType.f32.Bits) (i k : Int) : Prop where
  rounds : FloatType.f32.ofInt k = bits
  roundest : ∀ (j : Int) (a : Nat), FloatType.f32.ofInt j = bits → 10 ^ a ∣ j → 10 ^ a ∣ k
  nearest : ∀ j : Int, FloatType.f32.ofInt j = bits → (∀ a : Nat, 10 ^ a ∣ k → 10 ^ a ∣ j) →
    j ≠ k → |i - k| < |i - j|

theorem Spells.unique {k' : Int} (h : Spells bits i k) (h' : Spells bits i k') : k = k' := by
  by_contra hne
  have hlt := h.nearest k' h'.rounds (fun a ha => h'.roundest k a h.rounds ha) (Ne.symm hne)
  have hgt := h'.nearest k h.rounds (fun a ha => h.roundest k' a h'.rounds ha) hne
  exact absurd hlt hgt.not_gt

/-! ## Which whole numbers round to a single -/

theorem ofInt_eq_iff (h : FloatType.f32.decode bits = .finite negative m q) (hm : 0 < m) (j : Int) :
    FloatType.f32.ofInt j = bits ↔
      decide (j < 0) = negative ∧ Reaches m q (narrowBelow .f32 bits) (j.natAbs : ℚ) := by
  rcases Nat.eq_zero_or_pos j.natAbs with hj | hj
  · obtain rfl := Int.natAbs_eq_zero.mp hj
    have hzero : FloatType.f32.decode (FloatType.f32.ofInt 0) = .finite false 0 (-149) := by
      decide +kernel
    constructor
    · rintro rfl
      cases hzero.symm.trans h
      exact absurd hm (lt_irrefl 0)
    · rintro ⟨-, hreach⟩
      exact absurd (hreach.pos hm) (lt_irrefl 0)
  · rw [ofInt, nearest_eq_iff h hj Nat.one_pos, Nat.cast_one, div_one]

end FloatType

/-! ## The shortest decimal of a large value -/

namespace Decimal

variable {m : Nat} {q : Int} {narrow : Bool} {d : Decimal}

/-- The number that a decimal with no places stands for. -/
def whole (d : Decimal) : Nat := d.digits * 10 ^ d.exponent.toNat

theorem cast_whole (h : 0 ≤ d.exponent) : (d.whole : ℚ) = d.value := by
  obtain ⟨n, hn⟩ := Int.eq_ofNat_of_zero_le h
  simp [whole, value, hn]

theorem IsShortest.exponent_nonneg (hd : IsShortest m q narrow d) (hm : 0 < m) (hq : 0 ≤ q) :
    0 ≤ d.exponent := by
  obtain ⟨n, rfl⟩ := Int.eq_ofNat_of_zero_le hq
  have hself := Reaches.self m (n : Int) narrow
  rw [zpow_natCast] at hself
  refine hd.coarsest (m * 2 ^ n) 0 ?_ ?_
  · simpa using hself
  · rw [zpow_zero, zpow_natCast]
    exact_mod_cast Nat.mul_pos hm (Nat.two_pow_pos n)

/-- Two multiples of a step that are less than a step apart are the same. -/
theorem eq_of_sub_lt {a b : Nat} {x : ℚ} (hx : 0 < x) (hab : (a : ℚ) * x - b * x < x)
    (hba : (b : ℚ) * x - a * x < x) : a = b := by
  have hab : (a : ℚ) < b + 1 := lt_of_mul_lt_mul_right (by linarith) hx.le
  have hba : (b : ℚ) < a + 1 := lt_of_mul_lt_mul_right (by linarith) hx.le
  have hab : a < b + 1 := by exact_mod_cast hab
  have hba : b < a + 1 := by exact_mod_cast hba
  omega

/-- The gap above a value with a full leading digit is far less than the value. -/
theorem gap_lt {a : Int} (hm : 2 ^ 23 ≤ m) (ha : (m : ℚ) * 2 ^ q < 10 ^ a) :
    (2 : ℚ) ^ q < 10 ^ (a - 1) := by
  have hm : ((2 ^ 23 : Nat) : ℚ) ≤ m := by exact_mod_cast hm
  have hstep := ten_zpow_add_natCast (a - 1) 1
  rw [Nat.cast_one, sub_add_cancel] at hstep
  rw [hstep] at ha
  have hmul := mul_le_mul_of_nonneg_right hm (two_zpow_pos q).le
  have hp := two_zpow_pos q
  norm_num at hmul ha
  linarith

/-- No whole number within reach ends in more zeros. -/
theorem IsShortest.dvd_whole (hd : IsShortest m q narrow d) (hm : 2 ^ 23 ≤ m) (hq : 0 ≤ q)
    {c a : Nat} (h : Reaches m q narrow (c * 10 ^ (a : Int))) : 10 ^ a ∣ d.whole := by
  have hm0 : 0 < m := lt_of_lt_of_le (by norm_num) hm
  have he := hd.exponent_nonneg hm0 hq
  rcases le_or_gt ((10 : ℚ) ^ (a : Int)) (m * 2 ^ q) with hle | hgt
  · have hae := hd.coarsest c a h hle
    exact Dvd.dvd.mul_left (Nat.pow_dvd_pow 10 (by omega)) d.digits
  · -- The value lies below a power of ten within its reach, and the decimal is that power.
    have hv : (2 : ℚ) ^ q ≤ m * 2 ^ q :=
      le_mul_of_one_le_left (two_zpow_pos q).le (by exact_mod_cast hm0)
    have hc : (1 : ℚ) ≤ c := by
      have hc0 : c ≠ 0 := fun h0 => absurd (h.pos hm0) (by simp [h0])
      exact_mod_cast Nat.one_le_iff_ne_zero.mpr hc0
    have hstep := ten_zpow_add_natCast ((a : Int) - 1) 1
    rw [Nat.cast_one, sub_add_cancel, pow_one, Nat.cast_ofNat] at hstep
    have hT := ten_zpow_pos ((a : Int) - 1)
    have h' : Reaches m q narrow ((10 * c : Nat) * 10 ^ ((a : Int) - 1)) := by
      rw [hstep, ← mul_assoc, mul_comm (c : ℚ)] at h
      exact_mod_cast h
    have hlead : (10 : ℚ) ^ ((a : Int) - 1) ≤ m * 2 ^ q := by
      have hhigh := h.high
      rw [highEnd_eq, hstep, ← mul_assoc] at hhigh
      have hten := mul_le_mul_of_nonneg_right (by linarith : (10 : ℚ) ≤ c * 10) hT.le
      have hhalf := two_zpow_pred q
      linarith
    have hlow := hd.coarsest (10 * c) (a - 1) h' hlead
    have hup := lt_of_ten_zpow_lt (hd.le_value.trans_lt hgt)
    have hexp : d.exponent = (a : Int) - 1 := by omega
    have hgap := gap_lt hm hgt
    have hreach := hd.reaches
    rw [value, hexp] at hreach
    have heq : d.digits = 10 * c := eq_of_sub_lt hT ((hreach.sub_le h').trans_lt hgap)
      ((h'.sub_le hreach).trans_lt hgap)
    obtain ⟨b, rfl⟩ : ∃ b, a = b + 1 := ⟨a - 1, by omega⟩
    refine ⟨c, ?_⟩
    rw [whole, heq, hexp, Nat.cast_add_one, add_sub_cancel_right, Int.toNat_natCast, Nat.pow_succ]
    ring

/-- No other multiple of the same power of ten within reach is as near. -/
theorem IsShortest.lt_of_ne (hd : IsShortest m q narrow d) (hm : 0 < m) (hq : 0 ≤ q) {c : Nat}
    (h : Reaches m q narrow (c * 10 ^ d.exponent)) (hne : c ≠ d.digits) :
    |(m : ℚ) * 2 ^ q - d.value| < |(m : ℚ) * 2 ^ q - c * 10 ^ d.exponent| := by
  refine (hd.nearest c h).lt_of_ne fun heq => ?_
  have hT := ten_zpow_pos d.exponent
  have hreach := hd.reaches
  have hnearest := hd.nearest
  have hdiffer {k : Nat} (hk : (d.digits : ℚ) * 10 ^ d.exponent = k * 10 ^ d.exponent) :
      d.digits = k := by
    exact_mod_cast mul_right_cancel₀ hT.ne' hk
  unfold value at heq hreach hnearest
  -- The step is no more than the gap, for two multiples of it are within reach.
  have hgap : (10 : ℚ) ^ d.exponent ≤ 2 ^ q := by
    by_contra hlt
    rw [not_le] at hlt
    exact hne (eq_of_sub_lt hT ((h.sub_le hreach).trans_lt hlt) ((hreach.sub_le h).trans_lt hlt))
  rcases abs_eq_abs.mp heq with hsame | hopposite
  · exact hne (hdiffer (by linarith)).symm
  -- The value lies halfway between the two.
  have hmiddle : (m : ℚ) * 2 ^ (q + 1) = ((d.digits + c : Nat) : ℚ) * 10 ^ d.exponent := by
    rw [two_zpow_succ, Nat.cast_add]
    linarith
  rcases Nat.even_or_odd' (d.digits + c) with ⟨k, hk | hk⟩
  · have hv : (m : ℚ) * 2 ^ q = k * 10 ^ d.exponent := by
      rw [two_zpow_succ, hk, Nat.cast_mul, Nat.cast_ofNat] at hmiddle
      linarith
    have hzero := hnearest k (hv ▸ Reaches.self m q narrow)
    rw [hv, sub_self, abs_zero] at hzero
    have hdk := hdiffer (sub_eq_zero.mp (abs_eq_zero.mp (le_antisymm hzero (abs_nonneg _)))).symm
    omega
  · obtain ⟨n, rfl⟩ := Int.eq_ofNat_of_zero_le hq
    obtain ⟨l, hl⟩ := Int.eq_ofNat_of_zero_le (hd.exponent_nonneg hm hq)
    rw [hl, ← Nat.cast_add_one, zpow_natCast, zpow_natCast] at hmiddle
    have hmiddle : m * 2 ^ (n + 1) = (d.digits + c) * 10 ^ l := by exact_mod_cast hmiddle
    have hcoprime : Nat.Coprime (2 ^ (n + 1)) (d.digits + c) :=
      Nat.Coprime.pow_left _ (Nat.coprime_two_left.mpr ⟨k, hk⟩)
    have hdvd : 2 ^ (n + 1) ∣ 10 ^ l :=
      hcoprime.dvd_of_dvd_mul_left (hmiddle ▸ Nat.dvd_mul_left _ _)
    have hle := Nat.le_of_dvd (by positivity) hdvd
    rw [hl, zpow_natCast, zpow_natCast] at hgap
    have hgap : 10 ^ l ≤ 2 ^ n := by exact_mod_cast hgap
    rw [Nat.pow_succ] at hle
    have hpos := Nat.two_pow_pos n
    omega

theorem ten_zpow_le_two_zpow (hq : q ≤ 41) : (10 : ℚ) ^ (q - 29) ≤ 2 ^ (q - 1) := by
  obtain ⟨n, hn⟩ := Int.eq_ofNat_of_zero_le (Int.sub_nonneg.mpr hq)
  rw [show q - 29 = -(n : Int) + 12 by omega, show q - 1 = -(n : Int) + 40 by omega,
    zpow_add₀ (by norm_num), zpow_add₀ (by norm_num), zpow_neg, zpow_neg, zpow_natCast,
    zpow_natCast]
  have hinv : ((10 : ℚ) ^ n)⁻¹ ≤ (2 ^ n)⁻¹ :=
    inv_anti₀ (by positivity) (pow_le_pow_left₀ (by norm_num) (by norm_num) n)
  exact mul_le_mul hinv (by norm_num) (by positivity) (by positivity)

/-- Below `2^65` the shortest decimal has few enough significant bits for a double. -/
theorem IsShortest.exists_whole_eq (hd : IsShortest m q narrow d) (hlow : 2 ^ 23 ≤ m)
    (hhigh : m < 2 ^ 24) (hq : 0 ≤ q) (hq41 : q ≤ 41) :
    ∃ n s : Nat, n < 2 ^ 53 ∧ d.whole = n * 2 ^ s := by
  have hm : 0 < m := lt_of_lt_of_le (by norm_num) hlow
  have he := hd.exponent_nonneg hm hq
  have hfine : q - 29 ≤ d.exponent := by
    have hwide : (10 : ℚ) ^ (q - 29) < highEnd m q - lowEnd m q narrow := by
      refine (ten_zpow_le_two_zpow hq41).trans_lt ?_
      rw [highEnd_sub_lowEnd, two_mul_two_zpow]
      refine mul_lt_mul_of_pos_right ?_ (two_zpow_pos _)
      split_ifs <;> norm_num
    obtain ⟨j, hj⟩ := exists_reaches hm hwide
    refine hd.coarsest j _ hj ((ten_zpow_le_two_zpow hq41).trans ?_)
    calc (2 : ℚ) ^ (q - 1) ≤ 2 ^ q := zpow_le_zpow_right₀ (by norm_num) (by omega)
      _ ≤ m * 2 ^ q := le_mul_of_one_le_left (two_zpow_pos q).le (by exact_mod_cast hm)
  have hwhole : d.whole = d.digits * 5 ^ d.exponent.toNat * 2 ^ d.exponent.toNat := by
    rw [whole, Nat.mul_assoc, ← Nat.mul_pow]
  refine ⟨_, _, ?_, hwhole⟩
  have hlt : d.value < 2 * ((2 ^ 23 : Nat) : ℚ) * 2 ^ q :=
    hd.reaches.high.trans_lt (FloatType.highEnd_lt (t := .f32) (by simp [FloatType.fractionBits]; omega))
  rw [← cast_whole he] at hlt
  obtain ⟨p, rfl⟩ := Int.eq_ofNat_of_zero_le hq
  rw [zpow_natCast] at hlt
  have hlt : d.whole < 2 * 2 ^ 23 * 2 ^ p := by exact_mod_cast hlt
  have hpow : 2 ^ p ≤ 2 ^ (d.exponent.toNat + 29) := Nat.pow_le_pow_right (by decide) (by omega)
  rw [hwhole] at hlt
  rw [Nat.pow_add] at hpow
  refine Nat.lt_of_mul_lt_mul_right (a := 2 ^ d.exponent.toNat) (hlt.trans_le ?_)
  omega

theorem IsShortest.lt_whole (hd : IsShortest m q narrow d) (hlow : 2 ^ 23 ≤ m) (hq : 42 ≤ q) :
    2 ^ 64 < d.whole := by
  have he := hd.exponent_nonneg (lt_of_lt_of_le (by norm_num) hlow) (by omega)
  have hm : (8388608 : ℚ) ≤ m := by exact_mod_cast hlow
  have hp : (2 : ℚ) ^ (40 : Int) ≤ 2 ^ (q - 2) := zpow_le_zpow_right₀ (by norm_num) (by omega)
  have hfactor : (33554430 : ℚ) ≤ 4 * m - if narrow then 1 else 2 := by
    split_ifs <;> linarith
  have hlt : ((2 ^ 64 : Nat) : ℚ) < d.value :=
    calc ((2 ^ 64 : Nat) : ℚ) < 33554430 * 2 ^ (40 : Int) := by norm_num
      _ ≤ lowEnd m q narrow := mul_le_mul hfactor hp (by positivity) (by linarith)
      _ ≤ d.value := hd.reaches.low
  rw [← cast_whole he] at hlt
  exact_mod_cast hlt

end Decimal

namespace FloatType

variable {bits : FloatType.f32.Bits} {negative : Bool} {m : Nat} {q : Int}

/-- The whole number of a sign and a magnitude. -/
def withSign (negative : Bool) (n : Nat) : Int := if negative then -n else n

theorem natAbs_withSign (negative : Bool) (n : Nat) : (withSign negative n).natAbs = n := by
  cases negative <;> simp [withSign]

theorem withSign_natAbs {j : Int} (h : decide (j < 0) = negative) :
    withSign negative j.natAbs = j := by
  subst h
  rcases Int.lt_or_le j 0 with hj | hj
  · rw [withSign, if_pos (decide_eq_true hj)]
    omega
  · rw [withSign, if_neg (by simpa using hj)]
    omega

theorem withSign_neg_iff {n : Nat} (hn : 0 < n) : decide (withSign negative n < 0) = negative := by
  cases negative
  · simp [withSign]
  · simpa [withSign] using hn

theorem abs_withSign_sub (negative : Bool) (a b : Nat) :
    |withSign negative a - withSign negative b| = |(a : Int) - b| := by
  cases negative with
  | false => rfl
  | true =>
    simp only [withSign, if_true]
    rw [neg_sub_neg, abs_sub_comm]

theorem ten_pow_dvd_iff {a : Nat} {j : Int} : (10 : Int) ^ a ∣ j ↔ 10 ^ a ∣ j.natAbs := by
  rw [← Int.natCast_dvd]
  exact_mod_cast Iff.rfl

/-- The shortest decimal of a large single is the whole number that spells it. -/
theorem spells_whole {d : Decimal} {n : Nat}
    (h : FloatType.f32.decode bits = .finite negative m q) (hlow : 2 ^ 23 ≤ m) (hq : 0 ≤ q)
    (hn : (n : ℚ) = m * 2 ^ q) (hd : Decimal.IsShortest m q (narrowBelow .f32 bits) d) :
    Spells bits (withSign negative n) (withSign negative d.whole) := by
  have hm : 0 < m := lt_of_lt_of_le (by norm_num) hlow
  have hwhole := Decimal.cast_whole (hd.exponent_nonneg hm hq)
  obtain ⟨l, hl⟩ := Int.eq_ofNat_of_zero_le (hd.exponent_nonneg hm hq)
  have hpos : 0 < d.whole := by
    have hpos := hd.reaches.pos hm
    rw [← hwhole] at hpos
    exact_mod_cast hpos
  -- A whole number with `a` zeros at its end, as a multiple within reach.
  have multiple {j : Int} {a : Nat} (hj : FloatType.f32.ofInt j = bits) (ha : 10 ^ a ∣ j) :
      ∃ c : Nat, j.natAbs = c * 10 ^ a ∧
        Reaches m q (narrowBelow .f32 bits) (c * 10 ^ (a : Int)) := by
    obtain ⟨c, hc⟩ := ten_pow_dvd_iff.mp ha
    have hreach := ((ofInt_eq_iff h hm j).mp hj).2
    refine ⟨c, by rw [hc, Nat.mul_comm], ?_⟩
    rw [hc, Nat.mul_comm, Nat.cast_mul] at hreach
    rw [zpow_natCast]
    exact_mod_cast hreach
  refine ⟨?_, fun j a hj ha => ?_, fun j hj hzeros hne => ?_⟩
  · refine (ofInt_eq_iff h hm _).mpr ⟨withSign_neg_iff hpos, ?_⟩
    rw [natAbs_withSign, hwhole]
    exact hd.reaches
  · obtain ⟨c, -, hreach⟩ := multiple hj ha
    rw [ten_pow_dvd_iff, natAbs_withSign]
    exact hd.dvd_whole hlow hq hreach
  · have hzeros : 10 ^ l ∣ j := by
      refine hzeros l ?_
      rw [ten_pow_dvd_iff, natAbs_withSign, Decimal.whole, hl]
      exact Nat.dvd_mul_left _ _
    obtain ⟨c, hc, hreach⟩ := multiple hj hzeros
    rw [← withSign_natAbs ((ofInt_eq_iff h hm j).mp hj).1] at hne ⊢
    have hcd : c ≠ d.digits := by
      rintro rfl
      refine hne (congrArg (withSign negative) ?_)
      rw [hc, Decimal.whole, hl, Int.toNat_natCast]
    have hlt := hd.lt_of_ne hm hq (hl ▸ hreach) hcd
    rw [← hn, ← hwhole, hl, zpow_natCast] at hlt
    rw [abs_withSign_sub, abs_withSign_sub, hc]
    exact_mod_cast hlt

end FloatType

end BusCompliance
