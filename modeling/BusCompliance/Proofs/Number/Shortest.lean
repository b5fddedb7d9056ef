import BusCompliance.Number.Shortest
import BusCompliance.Proofs.Number.Rounding
import Mathlib.Data.Rat.Floor

/-!
# The shortest decimal

The search tries one power of ten after another, from the leading digit of the value downwards, and
stops at the first that has a multiple within reach. So the decimal it finds is on the coarsest
such grid and nearest to the value there.
-/

namespace BusCompliance

/-! ## Powers of ten -/

theorem ten_zpow_pos (e : Int) : (0 : ℚ) < 10 ^ e := zpow_pos (by norm_num) e

theorem ten_zpow_add_natCast (e : Int) (n : Nat) :
    (10 : ℚ) ^ (e + n) = ((10 ^ n : Nat) : ℚ) * 10 ^ e := by
  rw [zpow_add₀ (by norm_num), zpow_natCast, mul_comm, Nat.cast_pow, Nat.cast_ofNat]

theorem lt_of_ten_zpow_lt {a b : Int} (h : (10 : ℚ) ^ a < 10 ^ b) : a < b :=
  (zpow_lt_zpow_iff_right₀ (by norm_num)).mp h

theorem ten_zpow_le {a b : Int} (h : a ≤ b) : (10 : ℚ) ^ a ≤ 10 ^ b :=
  zpow_le_zpow_right₀ (by norm_num) h

namespace Decimal

variable {m : Nat} {q : Int} {narrow : Bool} {tie : Tie} {num den : Nat} {e : Int} {d : Decimal}

/-- The number that a decimal stands for. -/
def value (d : Decimal) : ℚ := d.digits * 10 ^ d.exponent

/-! ## The test -/

theorem compareScaled_eq (a : Nat) (i : Int) (n : Nat) (j : Int) :
    compareScaled a i n j = compare ((a : ℚ) * 10 ^ i) (n * 2 ^ j) := by
  have hi := cast_pow_div_cast_pow 10 i
  have hj := cast_pow_div_cast_pow 2 j
  have hi0 : (0 : ℚ) < ((10 ^ (-i).toNat : Nat) : ℚ) := by positivity
  have hj0 : (0 : ℚ) < ((2 ^ (-j).toNat : Nat) : ℚ) := by positivity
  rw [Nat.cast_ofNat, div_eq_iff hi0.ne'] at hi
  rw [Nat.cast_ofNat, div_eq_iff hj0.ne'] at hj
  have hc := mul_pos hi0 hj0
  have hleft : ((a * 10 ^ i.toNat * 2 ^ (-j).toNat : Nat) : ℚ) = a * 10 ^ i *
      (((10 ^ (-i).toNat : Nat) : ℚ) * ((2 ^ (-j).toNat : Nat) : ℚ)) := by
    rw [Nat.cast_mul, Nat.cast_mul, hi]; ring
  have hright : ((n * 2 ^ j.toNat * 10 ^ (-i).toNat : Nat) : ℚ) = n * 2 ^ j *
      (((10 ^ (-i).toNat : Nat) : ℚ) * ((2 ^ (-j).toNat : Nat) : ℚ)) := by
    rw [Nat.cast_mul, Nat.cast_mul, hj]; ring
  unfold compareScaled
  rcases lt_trichotomy ((a : ℚ) * 10 ^ i) (n * 2 ^ j) with h | h | h
  · rw [compare_lt_iff_lt.mpr h, compare_lt_iff_lt]
    have := mul_lt_mul_of_pos_right h hc
    rw [← hleft, ← hright] at this
    exact_mod_cast this
  · rw [compare_eq_iff_eq.mpr h, compare_eq_iff_eq]
    rw [h, ← hright] at hleft
    exact_mod_cast hleft
  · rw [compare_gt_iff_gt.mpr h, compare_gt_iff_gt]
    have := mul_lt_mul_of_pos_right h hc
    rw [← hleft, ← hright] at this
    exact_mod_cast this

theorem readsBack_iff (hm : 0 < m) :
    readsBack m q narrow d = true ↔ Reaches m q narrow d.value := by
  have hlow : (((if narrow then 4 * m - 1 else 4 * m - 2 : Nat) : ℕ) : ℚ) * 2 ^ (q - 2) =
      lowEnd m q narrow := by
    rw [lowEnd]
    cases narrow
    · simp only [Bool.false_eq_true, if_false]
      rw [Nat.cast_sub (by omega)]; push_cast; ring
    · simp only [if_true]
      rw [Nat.cast_sub (by omega)]; push_cast; ring
  have hhigh : ((4 * m + 2 : Nat) : ℚ) * 2 ^ (q - 2) = highEnd m q := by
    rw [highEnd]; push_cast; ring
  unfold readsBack
  dsimp only
  rw [compareScaled_eq, compareScaled_eq, hlow, hhigh, ← value]
  simp only [Bool.and_eq_true, Bool.or_eq_true, beq_iff_eq, compare_gt_iff_gt, compare_eq_iff_eq,
    compare_lt_iff_lt]
  constructor
  · rintro ⟨hl, hh⟩
    refine ⟨hl.elim le_of_lt fun h => h.2.ge, hh.elim le_of_lt fun h => h.2.le, fun h => ?_⟩
    rcases h with h | h
    · exact (hl.resolve_left h.not_gt).1
    · exact (hh.resolve_left h.not_lt).1
  · intro h
    refine ⟨h.low.lt_or_eq.imp_right fun he => ?_, h.high.lt_or_eq.imp_right fun he => ?_⟩
    · exact ⟨h.even (.inl he.symm), he.symm⟩
    · exact ⟨h.even (.inr he), he⟩

/-! ## One power of ten -/

/-- The two multiples of a power of ten around a value, the nearer first. -/
structure Around (v : ℚ) (e : Int) (near far : Nat) : Prop where
  sides : far = near + 1 ∧ near * 10 ^ e ≤ v ∧ v ≤ far * 10 ^ e ∨
    near = far + 1 ∧ far * 10 ^ e ≤ v ∧ v ≤ near * 10 ^ e
  nearer : |v - near * 10 ^ e| ≤ |v - far * 10 ^ e|

/-- The multiple below is the nearer one if the value is in the lower half of what is between. -/
theorem Around.of_below {w : ℚ} {l : Nat} (hl : l ≤ w) (hh : w ≤ l + 1) (h : 2 * w ≤ 2 * l + 1) :
    Around (w * 10 ^ e) e l (l + 1) := by
  have hT := ten_zpow_pos e
  refine ⟨.inl ⟨rfl, mul_le_mul_of_nonneg_right hl hT.le, ?_⟩, ?_⟩
  · rw [Nat.cast_add_one]
    exact mul_le_mul_of_nonneg_right hh hT.le
  · rw [← sub_mul, ← sub_mul, abs_mul, abs_mul, Nat.cast_add_one]
    refine mul_le_mul_of_nonneg_right ?_ (abs_nonneg _)
    rw [abs_of_nonneg (by linarith), abs_of_nonpos (by linarith)]
    linarith

theorem Around.of_above {w : ℚ} {l : Nat} (hl : l ≤ w) (hh : w ≤ l + 1) (h : 2 * l + 1 ≤ 2 * w) :
    Around (w * 10 ^ e) e (l + 1) l := by
  have hT := ten_zpow_pos e
  refine ⟨.inr ⟨rfl, mul_le_mul_of_nonneg_right hl hT.le, ?_⟩, ?_⟩
  · rw [Nat.cast_add_one]
    exact mul_le_mul_of_nonneg_right hh hT.le
  · rw [← sub_mul, ← sub_mul, abs_mul, abs_mul, Nat.cast_add_one]
    refine mul_le_mul_of_nonneg_right ?_ (abs_nonneg _)
    rw [abs_of_nonpos (by linarith), abs_of_nonneg (by linarith)]
    linarith

theorem exists_neighbours (tie : Tie) (num : Nat) (hd : 0 < den) (e : Int) :
    ∃ near far, neighbours tie num den e = [⟨near, e⟩, ⟨far, e⟩] ∧
      Around ((num : ℚ) / den) e near far := by
  have hpow := cast_pow_div_cast_pow 10 e
  have hd' : 0 < den * 10 ^ e.toNat := Nat.mul_pos hd (by positivity)
  -- In units of the power of ten the value is `n / d`.
  have hv : (num : ℚ) / den = ((num * 10 ^ (-e).toNat : Nat) : ℚ) /
      ((den * 10 ^ e.toNat : Nat) : ℚ) * 10 ^ e := by
    rw [Nat.cast_ofNat] at hpow
    rw [← hpow, Nat.cast_mul, Nat.cast_mul]
    field_simp
  unfold neighbours
  dsimp only
  rw [hv]
  generalize num * 10 ^ (-e).toNat = n at *
  generalize den * 10 ^ e.toNat = d at *
  have hdq : (0 : ℚ) < d := by exact_mod_cast hd'
  have hl : ((n / d : Nat) : ℚ) ≤ n / d := by
    rw [le_div_iff₀ hdq]
    exact_mod_cast Nat.div_mul_le_self n d
  have hh : (n : ℚ) / d ≤ (n / d : Nat) + 1 := by
    rw [div_le_iff₀ hdq, mul_comm]
    exact_mod_cast (Nat.lt_mul_div_succ n hd').le
  have hbelow (h : 2 * n ≤ (2 * (n / d) + 1) * d) : 2 * ((n : ℚ) / d) ≤ 2 * (n / d : Nat) + 1 := by
    rw [mul_div_assoc', div_le_iff₀ hdq]
    exact_mod_cast h
  have habove (h : (2 * (n / d) + 1) * d ≤ 2 * n) : 2 * ((n / d : Nat) : ℚ) + 1 ≤ 2 * ((n : ℚ) / d) := by
    rw [mul_div_assoc', le_div_iff₀ hdq]
    exact_mod_cast h
  cases hc : compare (2 * n) ((2 * (n / d) + 1) * d) with
  | lt => exact ⟨_, _, rfl, .of_below hl hh (hbelow (compare_lt_iff_lt.mp hc).le)⟩
  | gt => exact ⟨_, _, rfl, .of_above hl hh (habove (compare_gt_iff_gt.mp hc).le)⟩
  | eq =>
    have heq := compare_eq_iff_eq.mp hc
    have low := Around.of_below (e := e) hl hh (hbelow heq.le)
    have high := Around.of_above (e := e) hl hh (habove heq.ge)
    cases tie with
    | away => exact ⟨_, _, rfl, high⟩
    | toEven =>
      dsimp only
      split
      · exact ⟨_, _, rfl, high⟩
      · exact ⟨_, _, rfl, low⟩

/-- Whatever multiple is within reach, so is one of the two around the value, no farther from it. -/
theorem Around.toward {near far j : Nat} (h : Around (m * 2 ^ q) e near far)
    (hj : Reaches m q narrow (j * 10 ^ e)) :
    (∃ c, (c = near ∨ c = far) ∧ Reaches m q narrow (c * 10 ^ e) ∧
      |(m : ℚ) * 2 ^ q - c * 10 ^ e| ≤ |(m : ℚ) * 2 ^ q - j * 10 ^ e|) := by
  have hv := Reaches.self m q narrow
  have grid {a b : Nat} (hab : a ≤ b) : (a : ℚ) * 10 ^ e ≤ b * 10 ^ e :=
    mul_le_mul_of_nonneg_right (by exact_mod_cast hab) (ten_zpow_pos e).le
  have below {c : Nat} (hc : (c : ℚ) * 10 ^ e ≤ m * 2 ^ q) (hjc : j ≤ c) :
      Reaches m q narrow (c * 10 ^ e) ∧
      |(m : ℚ) * 2 ^ q - c * 10 ^ e| ≤ |(m : ℚ) * 2 ^ q - j * 10 ^ e| := by
    have hgrid := grid hjc
    refine ⟨hj.between hv hgrid hc, ?_⟩
    rw [abs_of_nonneg (by linarith), abs_of_nonneg (by linarith)]
    linarith
  have above {c : Nat} (hc : (m : ℚ) * 2 ^ q ≤ c * 10 ^ e) (hcj : c ≤ j) :
      Reaches m q narrow (c * 10 ^ e) ∧
      |(m : ℚ) * 2 ^ q - c * 10 ^ e| ≤ |(m : ℚ) * 2 ^ q - j * 10 ^ e| := by
    have hgrid := grid hcj
    refine ⟨hv.between hj hc hgrid, ?_⟩
    rw [abs_of_nonpos (by linarith), abs_of_nonpos (by linarith)]
    linarith
  rcases h.sides with ⟨rfl, hlow, hhigh⟩ | ⟨rfl, hlow, hhigh⟩
  · rcases Nat.lt_or_ge near j with hlt | hge
    · exact ⟨near + 1, .inr rfl, above hhigh hlt⟩
    · exact ⟨near, .inl rfl, below hlow hge⟩
  · rcases Nat.lt_or_ge far j with hlt | hge
    · exact ⟨far + 1, .inl rfl, above hhigh hlt⟩
    · exact ⟨far, .inr rfl, below hlow hge⟩

/-- What is found at one power of ten is within reach, and no multiple within reach is nearer. -/
theorem find?_neighbours (hm : 0 < m) (hd : 0 < den) (hv : (num : ℚ) / den = m * 2 ^ q)
    (h : (neighbours tie num den e).find? (readsBack m q narrow) = some d) :
    d.exponent = e ∧ Reaches m q narrow d.value ∧ ∀ j : Nat, Reaches m q narrow (j * 10 ^ e) →
      |(m : ℚ) * 2 ^ q - d.value| ≤ |(m : ℚ) * 2 ^ q - j * 10 ^ e| := by
  obtain ⟨near, far, heq, haround⟩ := exists_neighbours tie num hd e
  rw [hv] at haround
  have hreach := (readsBack_iff hm).mp (List.find?_some h)
  rw [heq, List.find?_cons] at h
  split at h
  · cases h
    refine ⟨rfl, hreach, fun j hj => ?_⟩
    obtain ⟨c, rfl | rfl, -, hdist⟩ := haround.toward hj
    · exact hdist
    · exact haround.nearer.trans hdist
  · rename_i hnear
    rw [List.find?_cons] at h
    split at h
    · cases h
      refine ⟨rfl, hreach, fun j hj => ?_⟩
      obtain ⟨c, rfl | rfl, hc, hdist⟩ := haround.toward hj
      · exact absurd ((readsBack_iff hm).mpr hc) (by rw [hnear]; decide)
      · exact hdist
    · cases h

theorem find?_neighbours_eq_none (hm : 0 < m) (hd : 0 < den)
    (hv : (num : ℚ) / den = m * 2 ^ q)
    (h : (neighbours tie num den e).find? (readsBack m q narrow) = none) (j : Nat) :
    ¬Reaches m q narrow (j * 10 ^ e) := by
  intro hj
  obtain ⟨near, far, heq, haround⟩ := exists_neighbours tie num hd e
  rw [hv] at haround
  rw [heq, List.find?_eq_none] at h
  obtain ⟨c, hc, hreach, -⟩ := haround.toward hj
  refine h ⟨c, e⟩ ?_ ((readsBack_iff hm).mpr hreach)
  rcases hc with rfl | rfl <;> simp

/-! ## The leading digit -/

theorem lt_pow_length (n : Nat) : n < 10 ^ length n := by
  induction n using length.induct with
  | case1 n h => rw [length, if_pos h]; omega
  | case2 n h ih =>
    rw [length, if_neg h, Nat.pow_succ]
    omega

theorem length_pos (n : Nat) : 0 < length n := by
  rw [length]
  split
  · exact Nat.one_pos
  · exact Nat.succ_pos _

theorem pow_length_le {n : Nat} (hn : 0 < n) : 10 ^ (length n - 1) ≤ n := by
  induction n using length.induct with
  | case1 n h => rw [length, if_pos h]; exact hn
  | case2 n h ih =>
    have ih := ih (by omega)
    obtain ⟨k, hk⟩ := Nat.exists_eq_add_of_lt (length_pos (n / 10))
    rw [length, if_neg h, Nat.add_sub_cancel]
    rw [hk, Nat.zero_add] at ih ⊢
    rw [Nat.add_sub_cancel] at ih
    rw [Nat.pow_succ]
    omega

/-- The scale of a positive value is one more than the exponent of its leading digit. -/
theorem scale_spec (hn : 0 < num) (hd : 0 < den) :
    (10 : ℚ) ^ (scale num den - 1) ≤ num / den ∧ (num : ℚ) / den < 10 ^ scale num den := by
  have hd' : (0 : ℚ) < den := by exact_mod_cast hd
  unfold scale
  split
  · rename_i h
    have hL := length_pos (num / den)
    have hlow := Nat.mul_le_of_le_div _ _ _ (pow_length_le (Nat.div_pos h hd))
    have hhigh := (Nat.div_lt_iff_lt_mul hd).mp (lt_pow_length (num / den))
    rw [le_div_iff₀ hd', div_lt_iff₀ hd', ← Nat.cast_pred hL, zpow_natCast, zpow_natCast]
    exact ⟨by exact_mod_cast hlow, by exact_mod_cast hhigh⟩
  · rename_i h
    have hL := length_pos ((den - 1) / num)
    have hhigh := (Nat.div_lt_iff_lt_mul hn).mp (lt_pow_length ((den - 1) / num))
    have hlow := Nat.mul_le_of_le_div _ _ _
      (pow_length_le (Nat.div_pos (show num ≤ den - 1 by omega) hn))
    rw [sub_sub_cancel_left, ← neg_sub, zpow_neg, zpow_neg, ← Nat.cast_pred hL, zpow_natCast,
      zpow_natCast, le_div_iff₀ hd', div_lt_iff₀ hd', inv_mul_le_iff₀ (by positivity),
      lt_inv_mul_iff₀ (by positivity)]
    exact ⟨by exact_mod_cast (by omega : den ≤ _), by exact_mod_cast (by omega : _ < den)⟩

/-! ## The whole search -/

theorem value_stripped (d : Decimal) : (stripped d).value = d.value := by
  induction d using stripped.induct with
  | case1 d h =>
    rw [stripped, if_pos h, value, value, h]
    simp
  | case2 d h h10 ih =>
    have hdvd : d.digits = d.digits / 10 * 10 := by omega
    rw [stripped, if_neg h, if_pos h10, ih, value, value, zpow_add_one₀ (by norm_num)]
    conv_rhs => rw [hdvd]
    push_cast
    ring
  | case3 d h h10 => rw [stripped, if_neg h, if_neg h10]

/-- What the search for `m * 2^q` settles on, before its trailing zeros go: no coarser power of ten
has a multiple within reach, and no multiple of its own is nearer. -/
structure IsShortest (m : Nat) (q : Int) (narrow : Bool) (d : Decimal) : Prop where
  reaches : Reaches m q narrow d.value
  le_value : (10 : ℚ) ^ d.exponent ≤ m * 2 ^ q
  coarsest : ∀ (j : Nat) (a : Int), Reaches m q narrow (j * 10 ^ a) → (10 : ℚ) ^ a ≤ m * 2 ^ q →
    a ≤ d.exponent
  nearest : ∀ j : Nat, Reaches m q narrow (j * 10 ^ d.exponent) →
    |(m : ℚ) * 2 ^ q - d.value| ≤ |(m : ℚ) * 2 ^ q - j * 10 ^ d.exponent|

/-- A grid with steps smaller than the reach is wide has a multiple within it. -/
theorem exists_reaches (hm : 0 < m) (h : (10 : ℚ) ^ e < highEnd m q - lowEnd m q narrow) :
    ∃ j : Nat, Reaches m q narrow (j * 10 ^ e) := by
  have hT := ten_zpow_pos e
  have hpos : 0 ≤ lowEnd m q narrow := (two_zpow_pos (q - 1)).le.trans (two_zpow_le_lowEnd hm)
  have hlow := mul_le_mul_of_nonneg_right (Nat.floor_le (div_nonneg hpos hT.le)) hT.le
  have hhigh := mul_lt_mul_of_pos_right (Nat.lt_floor_add_one (lowEnd m q narrow / 10 ^ e)) hT
  rw [div_mul_cancel₀ _ hT.ne'] at hlow hhigh
  refine ⟨⌊lowEnd m q narrow / 10 ^ e⌋₊ + 1, .of_lt ?_ ?_⟩
  · rwa [Nat.cast_add_one]
  · rw [Nat.cast_add_one, add_one_mul]
    linarith

theorem exists_least_of_findSome?_range {α : Type} {f : Nat → Option α} {n : Nat} {b : α}
    (h : (List.range n).findSome? f = some b) : ∃ i < n, f i = some b ∧ ∀ j < i, f j = none := by
  obtain ⟨l₁, i, l₂, heq, hi, hnone⟩ := List.findSome?_eq_some_iff.mp h
  obtain ⟨k, hk, rfl, hrest⟩ := List.range'_eq_append_iff.mp (List.range_eq_range' ▸ heq)
  obtain ⟨rfl, hpos, -⟩ := List.range'_eq_cons_iff.mp hrest.symm
  rw [Nat.zero_add, Nat.mul_one] at hi
  refine ⟨k, by omega, hi, fun j hj => hnone j ?_⟩
  rw [List.mem_range']
  exact ⟨j, hj, by omega⟩

/-- The search finds a decimal for every value of either format. -/
theorem shortest_spec (tie : Tie) (hm : 0 < m)
    (hfew : 4 * m < (if narrow then 3 else 4) * 10 ^ 16) :
    ∃ d, (shortest tie m q narrow).value = d.value ∧ IsShortest m q narrow d := by
  have hn : 0 < m * 2 ^ q.toNat := Nat.mul_pos hm (Nat.two_pow_pos _)
  have hd := Nat.two_pow_pos (-q).toNat
  have hv : ((m * 2 ^ q.toNat : Nat) : ℚ) / ((2 ^ (-q).toNat : Nat) : ℚ) = m * 2 ^ q := by
    exact_mod_cast cast_mul_pow_div_cast_pow m 2 q
  obtain ⟨hlow, hhigh⟩ := scale_spec hn hd
  rw [hv] at hlow hhigh
  unfold shortest
  dsimp only
  generalize scale (m * 2 ^ q.toNat) (2 ^ (-q).toNat) = k at *
  -- Seventeen digits are enough: the steps of their grid are smaller than the reach is wide.
  have hfine : (10 : ℚ) ^ (k - 1 - (16 : Nat)) < highEnd m q - lowEnd m q narrow := by
    have hp := two_zpow_pos (q - 2)
    have hscale := ten_zpow_add_natCast (k - 1 - (16 : Nat)) 16
    rw [sub_add_cancel] at hscale
    rw [hscale, four_mul_two_zpow q, ← mul_assoc] at hlow
    have hfew : (m : ℚ) * 4 < ((10 ^ 16 : Nat) : ℚ) * if narrow then 3 else 4 := by
      rw [mul_comm 4, mul_comm _ (10 ^ 16)] at hfew
      exact_mod_cast hfew
    have hmul := mul_lt_mul_of_pos_right hfew hp
    have hpos : (0 : ℚ) < ((10 ^ 16 : Nat) : ℚ) := by exact_mod_cast (by decide : 0 < 10 ^ 16)
    rw [highEnd_sub_lowEnd]
    refine lt_of_mul_lt_mul_left (hlow.trans_lt ?_) hpos.le
    rwa [← mul_assoc]
  cases hfound : (List.range 17).findSome? fun n =>
      (neighbours tie (m * 2 ^ q.toNat) (2 ^ (-q).toNat) (k - 1 - (n : Nat))).find?
        (readsBack m q narrow) with
  | none =>
    obtain ⟨j, hj⟩ := exists_reaches hm hfine
    have hlast := List.findSome?_eq_none_iff.mp hfound 16 (by decide)
    exact absurd hj (find?_neighbours_eq_none hm hd hv hlast j)
  | some d =>
    obtain ⟨n, -, hn, hnone⟩ := exists_least_of_findSome?_range hfound
    obtain ⟨hexp, hreach, hnear⟩ := find?_neighbours hm hd hv hn
    refine ⟨d, value_stripped d, hreach, ?_, fun j a hj ha => ?_, ?_⟩
    · rw [hexp]
      exact (ten_zpow_le (by omega)).trans hlow
    · have hak : a < k := lt_of_ten_zpow_lt (ha.trans_lt hhigh)
      by_contra hcoarse
      -- A coarser power of ten was tried before, and in vain.
      have htried := hnone (k - 1 - a).toNat (by omega)
      rw [show k - 1 - ((k - 1 - a).toNat : Int) = a by omega] at htried
      exact find?_neighbours_eq_none hm hd hv htried j hj
    · rw [hexp]
      exact hnear

end Decimal

end BusCompliance
