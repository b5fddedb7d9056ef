import BusCompliance.Proofs.Number.FloatText
import BusCompliance.Proofs.Number.Spelling
import BusCompliance.Value.Coercion

/-!
# Singles as integers

An integer is taken from the double that a single is widened to, so it is the integer part of the
shortest decimal. Below `2^24` that is the integer part of the single itself, and from there on it
is the whole number that spells the single.
-/

namespace BusCompliance

theorem IntegerType.val_of_number? {t : IntegerType} {k : Int} {n : t.Number}
    (h : t.number? k = some n) : n.val = k := by
  unfold number? at h
  split at h
  · cases h
    rfl
  · cases h

theorem IntegerType.number?_eq_none (t : IntegerType) {k : Int} (h : 2 ^ 64 ≤ k.natAbs) :
    t.number? k = none := by
  unfold number?
  rw [dif_neg]
  cases t <;> simp [least, greatest, isSigned, bytes] <;> omega

namespace FloatType

section Truncation

variable {t : FloatType} {bits : t.Bits} {negative : Bool} {m : Nat} {q i : Int}

/-- The whole number that `truncate?` works out is the integer part of the value. -/
theorem truncated_spec (m : Nat) (q : Int) :
    ((m * 2 ^ q.toNat / 2 ^ (-q).toNat : Nat) : ℚ) ≤ m * 2 ^ q ∧
    (m : ℚ) * 2 ^ q < (m * 2 ^ q.toNat / 2 ^ (-q).toNat : Nat) + 1 := by
  have hd := Nat.two_pow_pos (-q).toNat
  have hd' : (0 : ℚ) < ((2 ^ (-q).toNat : Nat) : ℚ) := by exact_mod_cast hd
  have hv : ((m * 2 ^ q.toNat : Nat) : ℚ) / ((2 ^ (-q).toNat : Nat) : ℚ) = m * 2 ^ q := by
    exact_mod_cast cast_mul_pow_div_cast_pow m 2 q
  rw [← hv, le_div_iff₀ hd', div_lt_iff₀ hd', mul_comm (_ + 1)]
  exact ⟨by exact_mod_cast Nat.div_mul_le_self _ _, by exact_mod_cast Nat.lt_mul_div_succ _ hd⟩

theorem exists_of_truncate? (h : t.truncate? bits = some i) :
    ∃ negative m q n, t.decode bits = .finite negative m q ∧ ((n : Nat) : ℚ) ≤ m * 2 ^ q ∧
      (m : ℚ) * 2 ^ q < n + 1 ∧ i = withSign negative n := by
  unfold truncate? at h
  cases hd : t.decode bits with
  | nan => rw [hd] at h; cases h
  | infinite negative => rw [hd] at h; cases h
  | finite negative m q =>
    rw [hd] at h
    obtain ⟨hlow, hhigh⟩ := truncated_spec m q
    exact ⟨negative, m, q, _, rfl, hlow, hhigh, (Option.some.inj h).symm⟩

theorem truncate?_of_decode {n : Nat} (h : t.decode bits = .finite negative m q)
    (hlow : (n : ℚ) ≤ m * 2 ^ q) (hhigh : (m : ℚ) * 2 ^ q < n + 1) :
    t.truncate? bits = some (withSign negative n) := by
  obtain ⟨hlow', hhigh'⟩ := truncated_spec m q
  have hn : m * 2 ^ q.toNat / 2 ^ (-q).toNat = n := by
    have h1 : n < m * 2 ^ q.toNat / 2 ^ (-q).toNat + 1 := by
      exact_mod_cast hlow.trans_lt hhigh'
    have h2 : m * 2 ^ q.toNat / 2 ^ (-q).toNat < n + 1 := by
      exact_mod_cast hlow'.trans_lt hhigh
    omega
  rw [truncate?, h]
  dsimp only
  rw [hn, withSign]

end Truncation

variable {bits : FloatType.f32.Bits} {negative : Bool} {m n : Nat} {q : Int}

/-- A single with a fraction lies half a gap or more inside the two whole numbers around it. -/
theorem inside_of_fraction (hq : q < 0) (hlow : (n : ℚ) < m * 2 ^ q)
    (hhigh : (m : ℚ) * 2 ^ q < n + 1) :
    (n : ℚ) + 2 ^ q ≤ m * 2 ^ q ∧ (m : ℚ) * 2 ^ q + 2 ^ q ≤ n + 1 := by
  obtain ⟨p, hp⟩ := Int.eq_ofNat_of_zero_le (by omega : 0 ≤ -q)
  have hs := two_zpow_pos q
  -- A whole number is a multiple of the gap.
  have hone : (1 : ℚ) = ((2 ^ p : Nat) : ℚ) * 2 ^ q := by
    rw [← two_zpow_add_natCast, ← hp, add_neg_cancel, zpow_zero]
  have hn : (n : ℚ) = ((n * 2 ^ p : Nat) : ℚ) * 2 ^ q := by
    rw [Nat.cast_mul, mul_assoc, ← hone, mul_one]
  have hn1 : (n : ℚ) + 1 = (((n + 1) * 2 ^ p : Nat) : ℚ) * 2 ^ q := by
    rw [Nat.cast_mul, mul_assoc, ← hone, mul_one, Nat.cast_add_one]
  rw [hn1] at hhigh ⊢
  rw [hn] at hlow ⊢
  have hlow : n * 2 ^ p < m := by exact_mod_cast lt_of_mul_lt_mul_right hlow hs.le
  have hhigh : m < (n + 1) * 2 ^ p := by exact_mod_cast lt_of_mul_lt_mul_right hhigh hs.le
  rw [← add_one_mul, ← add_one_mul]
  exact ⟨mul_le_mul_of_nonneg_right (by exact_mod_cast hlow) hs.le,
    mul_le_mul_of_nonneg_right (by exact_mod_cast hhigh) hs.le⟩

/-- Where the gap is at most one, the shortest decimal of a whole number is that number. -/
theorem value_eq_of_whole {narrow : Bool} {d : Decimal} (hd : Decimal.IsShortest m q narrow d)
    (hn : 0 < n) (hv : (n : ℚ) = m * 2 ^ q) (hq : q ≤ 0) : d.value = n := by
  have he : 0 ≤ d.exponent := by
    refine hd.coarsest n 0 ?_ ?_
    · rw [zpow_zero, mul_one, hv]
      exact Reaches.self m q narrow
    · rw [zpow_zero, ← hv]
      exact_mod_cast hn
  have hgap : (2 : ℚ) ^ (q - 1) ≤ 1 / 2 := by
    calc (2 : ℚ) ^ (q - 1) ≤ 2 ^ (-1 : Int) := zpow_le_zpow_right₀ (by norm_num) (by omega)
      _ = 1 / 2 := by norm_num
  have hlow := (sub_le_lowEnd m q narrow).trans hd.reaches.low
  have hhigh := hd.reaches.high
  rw [highEnd_eq] at hhigh
  rw [← Decimal.cast_whole he, ← hv] at hlow hhigh
  have hlow : (n : ℚ) < d.whole + 1 := by linarith
  have hhigh : (d.whole : ℚ) < n + 1 := by linarith
  have hlow : n < d.whole + 1 := by exact_mod_cast hlow
  have hhigh : d.whole < n + 1 := by exact_mod_cast hhigh
  rw [← Decimal.cast_whole he]
  exact_mod_cast (by omega : d.whole = n)

/-- A single below `2^24` has a gap of at most one. -/
theorem gap_le_one (h : FloatType.f32.decode bits = .finite negative m q)
    (hhigh : (m : ℚ) * 2 ^ q < n + 1) (hn : n < 2 ^ 24) : q ≤ 0 := by
  by_contra hq
  obtain ⟨-, -, -, hlead⟩ := fits_single h
  have hm : (8388608 : ℚ) ≤ m := by exact_mod_cast hlead (by omega)
  have hgap : (2 : ℚ) ^ (1 : Int) ≤ 2 ^ q := zpow_le_zpow_right₀ (by norm_num) (by omega)
  have hn : (n : ℚ) + 1 ≤ 16777216 := by exact_mod_cast hn
  have hv : (8388608 : ℚ) * 2 ^ (1 : Int) ≤ m * 2 ^ q :=
    mul_le_mul hm hgap (by positivity) (by positivity)
  norm_num at hv
  linarith

/-- Below `2^24` the shortest decimal has the same integer part, also after it is rounded. -/
theorem truncate?_widen_of_lt (h : FloatType.f32.decode bits = .finite negative m q)
    (hlow : (n : ℚ) ≤ m * 2 ^ q) (hhigh : (m : ℚ) * 2 ^ q < n + 1) (hn : n < 2 ^ 24) :
    FloatType.f64.truncate? (widen bits) = some (withSign negative n) := by
  rcases Nat.eq_zero_or_pos m with rfl | hm
  · have hn0 : n = 0 := by
      rw [Nat.cast_zero, zero_mul] at hlow
      exact_mod_cast le_antisymm hlow (Nat.cast_nonneg n)
    exact truncate?_of_decode (decode_widen_zero h) (by simp [hn0]) (by simp [hn0])
  obtain ⟨hm24, hleast, -, -⟩ := fits_single h
  obtain ⟨d, r, e, hd, hdecode, hfits, hreach⟩ := exists_widen h hm
  have hq := gap_le_one h hhigh hn
  have hfit : n < 2 * 2 ^ FloatType.f64.fractionBits := hn.trans (by decide)
  have hself : (n : ℚ) * 2 ^ (0 : Int) = n := by rw [zpow_zero, mul_one]
  rcases hlow.eq_or_lt with heq | hlt
  · have hpos : 0 < n := by
      have hpos : (0 : ℚ) < n := heq ▸ mul_pos (by exact_mod_cast hm) (two_zpow_pos q)
      exact_mod_cast hpos
    rw [value_eq_of_whole hd hpos heq hq, ← hself] at hreach
    have hexact := hfits.eq_of_reaches hfit (by decide) hreach
    rw [hself] at hexact
    exact truncate?_of_decode hdecode hexact.ge (by linarith)
  · have hq : q < 0 := by
      refine lt_of_le_of_ne hq fun h0 => ?_
      rw [h0, zpow_zero, mul_one] at hlt hhigh
      have hlt : n < m := by exact_mod_cast hlt
      have hhigh : m < n + 1 := by exact_mod_cast hhigh
      omega
    obtain ⟨hin, hout⟩ := inside_of_fraction hq hlt hhigh
    have hhalf := two_zpow_pred q
    have hgap := two_zpow_pos (q - 1)
    have hdlow := (sub_le_lowEnd m q _).trans hd.reaches.low
    have hdhigh := hd.reaches.high
    rw [highEnd_eq] at hdhigh
    -- The upper end of the reach is a double, and still below `n + 1`.
    have hend : ((2 * m + 1 : Nat) : ℚ) * 2 ^ (q - 1) = m * 2 ^ q + 2 ^ (q - 1) := by
      rw [two_zpow_pred q]
      push_cast
      ring
    have hr := hfits.le_of_reaches (s := 0) hfit (by decide) hreach (by linarith)
    have hr' := hfits.ge_of_reaches (show 2 * m + 1 < 2 * 2 ^ 52 by omega)
      (show (-1074 : Int) ≤ q - 1 by omega) hreach (by linarith)
    exact truncate?_of_decode hdecode (by linarith) (by linarith)

/-- From `2^24` on a single is a whole number. -/
theorem exact_of_le (h : FloatType.f32.decode bits = .finite negative m q)
    (hlow : (n : ℚ) ≤ m * 2 ^ q) (hhigh : (m : ℚ) * 2 ^ q < n + 1) (hn : 2 ^ 24 ≤ n) :
    0 < q ∧ (n : ℚ) = m * 2 ^ q := by
  obtain ⟨hm, -, -, -⟩ := fits_single h
  have hq : 0 < q := by
    by_contra hq
    have hm : (m : ℚ) < 16777216 := by exact_mod_cast hm
    have hgap : (2 : ℚ) ^ q ≤ 1 := zpow_le_one_of_nonpos₀ (by norm_num) (by omega)
    have hle := mul_le_of_le_one_right (Nat.cast_nonneg (α := ℚ) m) hgap
    have hn : (16777216 : ℚ) ≤ n := by exact_mod_cast hn
    linarith
  refine ⟨hq, ?_⟩
  obtain ⟨p, rfl⟩ := Int.eq_ofNat_of_zero_le hq.le
  rw [zpow_natCast] at hlow hhigh ⊢
  have hlow : n ≤ m * 2 ^ p := by exact_mod_cast hlow
  have hhigh : m * 2 ^ p < n + 1 := by exact_mod_cast hhigh
  exact_mod_cast (by omega : n = m * 2 ^ p)

/-- A double that `2^64` or more rounds to is out of range of every integer type. -/
theorem number?_truncate?_of_le {bits : FloatType.f64.Bits} {r k : Nat} {e : Int}
    (h : FloatType.f64.decode bits = .finite negative r e) (hfits : FloatType.f64.Fits r e)
    (hreach : Reaches r e (FloatType.f64.isNarrow r e) k) (hk : 2 ^ 64 ≤ k) (t : IntegerType) :
    (FloatType.f64.truncate? bits).bind t.number? = none := by
  have hr := hfits.le_of_reaches (n := 1) (s := 64) (by decide) (by decide) hreach
    (by rw [Nat.cast_one, one_mul]; exact_mod_cast hk)
  obtain ⟨hlow, hhigh⟩ := truncated_spec r e
  have hbig := hr.trans_lt hhigh
  rw [Nat.cast_one, one_mul] at hbig
  have hbig : 2 ^ 64 < r * 2 ^ e.toNat / 2 ^ (-e).toNat + 1 := by exact_mod_cast hbig
  rw [truncate?_of_decode h hlow hhigh, Option.bind_some, t.number?_eq_none]
  rw [natAbs_withSign]
  omega

/-- From `2^24` on, what a single narrows to is the whole number that spells it. Far beyond the
range of every integer type both are out of range. -/
theorem exists_spells (h : FloatType.f32.decode bits = .finite negative m q)
    (hlow : (n : ℚ) ≤ m * 2 ^ q) (hhigh : (m : ℚ) * 2 ^ q < n + 1) (hn : 2 ^ 24 ≤ n) :
    ∃ k, Spells bits (withSign negative n) k ∧ ∀ t : IntegerType,
      (FloatType.f64.truncate? (widen bits)).bind t.number? = t.number? k := by
  obtain ⟨hm24, hleast, -, hlead⟩ := fits_single h
  obtain ⟨hq, hv⟩ := exact_of_le h hlow hhigh hn
  have hm := hlead (by omega)
  have hm0 : 0 < m := lt_of_lt_of_le (by norm_num) hm
  obtain ⟨d, r, e, hd, hdecode, hfits, hreach⟩ := exists_widen h hm0
  refine ⟨withSign negative d.whole, spells_whole h hm hq.le hv hd, fun t => ?_⟩
  have hwhole := Decimal.cast_whole (hd.exponent_nonneg hm0 hq.le)
  rw [← hwhole] at hreach
  rcases Int.lt_or_le 41 q with hbig | hsmall
  · have hwide := (hd.lt_whole hm (by omega)).le
    rw [number?_truncate?_of_le hdecode hfits hreach hwide, t.number?_eq_none]
    rwa [natAbs_withSign]
  · obtain ⟨a, s, ha, has⟩ := hd.exists_whole_eq hm hm24 hq.le hsmall
    have hcast : (d.whole : ℚ) = a * 2 ^ (s : Int) := by
      rw [zpow_natCast, has]
      push_cast
      rfl
    rw [hcast] at hreach
    have hexact := hfits.eq_of_reaches ha (by simp [leastExponent]) hreach
    rw [← hcast] at hexact
    rw [truncate?_of_decode hdecode hexact.ge (by linarith), Option.bind_some]

end FloatType

/-- What a finite single narrows to, whatever the target. -/
theorem FloatType.exists_narrowed {bits : FloatType.f32.Bits} {i : Int}
    (h : FloatType.f32.truncate? bits = some i) :
    ∃ k, (if i.natAbs < 2 ^ 24 then k = i else FloatType.Spells bits i k) ∧
      ∀ t : IntegerType,
        (FloatType.f64.truncate? (FloatType.widen bits)).bind t.number? = t.number? k := by
  obtain ⟨negative, m, q, n, hdecode, hlow, hhigh, rfl⟩ := exists_of_truncate? h
  rw [natAbs_withSign]
  split
  · rename_i hn
    refine ⟨_, rfl, fun t => ?_⟩
    rw [truncate?_widen_of_lt hdecode hlow hhigh hn, Option.bind_some]
  · rename_i hn
    exact exists_spells hdecode hlow hhigh (Nat.not_lt.mp hn)

namespace Value

theorem toInteger_eq_ok_iff {v : Value} {t : IntegerType} {n : t.Number} :
    v.toInteger t = .ok n ↔ (v.integral? t.bytes).bind t.number? = some n := by
  unfold toInteger
  split <;> rename_i h <;> simp [h]

theorem toInteger_eq_error {v : Value} {t : IntegerType} {e : Error}
    (h : v.toInteger t = .error e) : e = .notNumeric (.integer t) := by
  unfold toInteger at h
  split at h
  · cases h
  · exact (Except.error.inj h).symm

/-- A single narrows to an integer exactly if it is finite and the integer is its integer part, or
from `2^24` on the whole number that spells it. Otherwise the error names the target. -/
theorem toInteger_single (bits : FloatType.f32.Bits) (t : IntegerType) :
    (∀ n : t.Number, (Value.float .f32 bits).toInteger t = .ok n ↔
      ∃ i, FloatType.f32.truncate? bits = some i ∧
        if i.natAbs < 2 ^ 24 then n.val = i else FloatType.Spells bits i n.val) ∧
    ∀ e, (Value.float .f32 bits).toInteger t = .error e → e = .notNumeric (.integer t) := by
  refine ⟨fun n => ?_, fun e => toInteger_eq_error⟩
  rw [toInteger_eq_ok_iff, integral?]
  constructor
  · intro h
    cases hi : FloatType.f32.truncate? bits with
    | none =>
      rw [FloatType.truncate?_widen_of_none hi] at h
      cases h
    | some i =>
      obtain ⟨k, hk, hnumber⟩ := FloatType.exists_narrowed hi
      rw [hnumber t] at h
      rw [IntegerType.val_of_number? h]
      exact ⟨i, rfl, hk⟩
  · rintro ⟨i, hi, hn⟩
    obtain ⟨k, hk, hnumber⟩ := FloatType.exists_narrowed hi
    have hnk : k = n.val := by
      split at hn
      · rename_i hlt
        rw [if_pos hlt] at hk
        rw [hk, hn]
      · rename_i hlt
        rw [if_neg hlt] at hk
        exact hk.unique hn
    rw [hnumber t, hnk, IntegerType.number?_val]

/-- The single 2^31 lies outside the four-byte integers and narrows to one of them. -/
theorem toInteger_single_beyond :
    FloatType.f32.truncate? (BitVec.ofNat _ 0x4F000000) = some 2147483648 ∧
    IntegerType.greatest .i32 < 2147483648 ∧
    (Value.float .f32 (BitVec.ofNat _ 0x4F000000)).toInteger .i32 =
      .ok ⟨2147483600, by decide, by decide⟩ := by
  refine ⟨by decide +kernel, by decide, ?_⟩
  rw [toInteger_eq_ok_iff]
  decide +kernel

end Value

end BusCompliance
