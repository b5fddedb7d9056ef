import BusCompliance.Number.Natural
import Mathlib.Algebra.Order.Field.Power
import Mathlib.Tactic.FieldSimp
import Mathlib.Tactic.Linarith
import Mathlib.Tactic.NormNum
import Mathlib.Tactic.Positivity
import Mathlib.Tactic.Ring

/-!
# The reach of a value

The numbers that round to a binary value `m * 2^q` lie within half the gap to its neighbours. They
are rational numbers here, so that a quotient and a decimal of the same value round alike.
-/

namespace BusCompliance

/-! ## Scaled numbers -/

/-- A power with an integer exponent, written as the quotient of two naturals. -/
theorem cast_pow_div_cast_pow (b : Nat) (e : Int) :
    ((b ^ e.toNat : Nat) : ℚ) / ((b ^ (-e).toNat : Nat) : ℚ) = (b : ℚ) ^ e := by
  rcases Int.le_total 0 e with h | h
  · obtain ⟨n, rfl⟩ := Int.eq_ofNat_of_zero_le h
    simp
  · obtain ⟨n, hn⟩ := Int.eq_ofNat_of_zero_le (Int.neg_nonneg.mpr h)
    obtain rfl : e = -n := by omega
    simp

theorem cast_mul_pow_div_cast_pow (n b : Nat) (e : Int) :
    ((n * b ^ e.toNat : Nat) : ℚ) / ((b ^ (-e).toNat : Nat) : ℚ) = n * (b : ℚ) ^ e := by
  rw [Nat.cast_mul, mul_div_assoc, cast_pow_div_cast_pow]

theorem two_zpow_pos (q : Int) : (0 : ℚ) < 2 ^ q := zpow_pos (by norm_num) q

theorem two_zpow_succ (q : Int) : (2 : ℚ) ^ (q + 1) = 2 * 2 ^ q := by
  rw [zpow_add_one₀ (by norm_num), mul_comm]

theorem two_zpow_pred (q : Int) : (2 : ℚ) ^ q = 2 * 2 ^ (q - 1) := by
  rw [← two_zpow_succ, sub_add_cancel]

theorem two_zpow_add_natCast (q : Int) (n : Nat) :
    (2 : ℚ) ^ (q + n) = ((2 ^ n : Nat) : ℚ) * 2 ^ q := by
  rw [zpow_add₀ (by norm_num), zpow_natCast, mul_comm, Nat.cast_pow, Nat.cast_ofNat]

theorem lt_of_two_zpow_lt {a b : Int} (h : (2 : ℚ) ^ a < 2 ^ b) : a < b :=
  (zpow_lt_zpow_iff_right₀ (by norm_num)).mp h

/-! ## The nearest whole number -/

/-- `r` is nearest to `v`, and the even one of two that are. -/
structure IsNearest (v : ℚ) (r : Nat) : Prop where
  low : 2 * (r : ℚ) - 1 ≤ 2 * v
  high : 2 * v ≤ 2 * r + 1
  even : 2 * v = 2 * r - 1 ∨ 2 * v = 2 * r + 1 → r % 2 = 0

theorem IsNearest.unique {v : ℚ} {r s : Nat} (hr : IsNearest v r) (hs : IsNearest v s) : r = s := by
  -- Of two different ones the greater is one more, `v` lies halfway, and both are even.
  have key : ∀ {r s : Nat}, IsNearest v r → IsNearest v s → ¬r < s := by
    intro r s hr hs hlt
    have hstep : (r : ℚ) + 1 ≤ s := by exact_mod_cast hlt
    have hsr : s = r + 1 := by
      have : (s : ℚ) ≤ r + 1 := by linarith [hr.high, hs.low]
      have : s ≤ r + 1 := by exact_mod_cast this
      omega
    have hr2 : r % 2 = 0 := hr.even (.inr (by linarith [hr.high, hs.low]))
    have hs2 : s % 2 = 0 := hs.even (.inl (by linarith [hr.high, hs.low]))
    omega
  exact Nat.le_antisymm (Nat.not_lt.mp (key hs hr)) (Nat.not_lt.mp (key hr hs))

/-! ## What rounds to a value -/

/-- The end of the reach of `m * 2^q` towards the value below it. -/
def lowEnd (m : Nat) (q : Int) (narrow : Bool) : ℚ :=
  (4 * m - if narrow then 1 else 2) * 2 ^ (q - 2)

/-- The end of the reach of `m * 2^q` towards the value above it. -/
def highEnd (m : Nat) (q : Int) : ℚ := (4 * m + 2) * 2 ^ (q - 2)

/-- `v` is within half the gap between `m * 2^q` and its neighbour on that side. Halfway it rounds
to an even `m` only. -/
structure Reaches (m : Nat) (q : Int) (narrow : Bool) (v : ℚ) : Prop where
  low : lowEnd m q narrow ≤ v
  high : v ≤ highEnd m q
  even : v = lowEnd m q narrow ∨ v = highEnd m q → m % 2 = 0

theorem four_mul_two_zpow (q : Int) : (2 : ℚ) ^ q = 4 * 2 ^ (q - 2) := by
  rw [two_zpow_pred q, two_zpow_pred (q - 1), sub_sub]; norm_num; ring

theorem two_mul_two_zpow (q : Int) : (2 : ℚ) ^ (q - 1) = 2 * 2 ^ (q - 2) := by
  rw [two_zpow_pred (q - 1), sub_sub]; norm_num

theorem isNearest_div_iff {m : Nat} {q : Int} {v : ℚ} :
    IsNearest (v / 2 ^ q) m ↔ Reaches m q false v := by
  have hp := two_zpow_pos (q - 2)
  have h4 := four_mul_two_zpow q
  have hlow : lowEnd m q false = (2 * m - 1) * 2 ^ q / 2 := by rw [h4, lowEnd, if_neg Bool.false_ne_true]; ring
  have hhigh : highEnd m q = (2 * m + 1) * 2 ^ q / 2 := by rw [h4, highEnd]; ring
  have hq := two_zpow_pos q
  have c1 : 2 * (m : ℚ) - 1 ≤ 2 * (v / 2 ^ q) ↔ lowEnd m q false ≤ v := by
    rw [hlow, mul_div_assoc', le_div_iff₀ hq, div_le_iff₀ (by norm_num), mul_comm v]
  have c2 : 2 * (v / 2 ^ q) ≤ 2 * m + 1 ↔ v ≤ highEnd m q := by
    rw [hhigh, mul_div_assoc', div_le_iff₀ hq, le_div_iff₀ (by norm_num), mul_comm v]
  have c3 : 2 * (v / 2 ^ q) = 2 * m - 1 ↔ v = lowEnd m q false := by
    rw [hlow, mul_div_assoc', div_eq_iff hq.ne', eq_div_iff (by norm_num), mul_comm v]
  have c4 : 2 * (v / 2 ^ q) = 2 * m + 1 ↔ v = highEnd m q := by
    rw [hhigh, mul_div_assoc', div_eq_iff hq.ne', eq_div_iff (by norm_num), mul_comm v]
  constructor
  · exact fun h => ⟨c1.mp h.low, c2.mp h.high, fun he => h.even (he.imp c3.mpr c4.mpr)⟩
  · exact fun h => ⟨c1.mpr h.low, c2.mpr h.high, fun he => h.even (he.imp c3.mp c4.mp)⟩

theorem Reaches.unique {m m' : Nat} {q : Int} {v : ℚ} (h : Reaches m q false v)
    (h' : Reaches m' q false v) : m = m' :=
  (isNearest_div_iff.mpr h).unique (isNearest_div_iff.mpr h')

/-- Of the multiples of `2^q` only `m * 2^q` itself is within its reach. -/
theorem Reaches.eq_of_onGrid {m n : Nat} {q : Int} {narrow : Bool}
    (h : Reaches m q narrow (n * 2 ^ q)) : m = n := by
  have hp := two_zpow_pos (q - 2)
  have hlow := h.low
  have hhigh := h.high
  rw [four_mul_two_zpow q, ← mul_assoc] at hlow hhigh
  have hlow := le_of_mul_le_mul_right hlow hp
  have hhigh := le_of_mul_le_mul_right hhigh hp
  have hmn : (m : ℚ) < ((n + 1 : Nat) : ℚ) := by
    push_cast
    split_ifs at hlow <;> linarith
  have hnm : (n : ℚ) < ((m + 1 : Nat) : ℚ) := by
    push_cast
    linarith
  have hmn : m < n + 1 := by exact_mod_cast hmn
  have hnm : n < m + 1 := by exact_mod_cast hnm
  omega

section

variable {m : Nat} {q : Int} {narrow : Bool} {x y z : ℚ}

theorem Reaches.between (hx : Reaches m q narrow x) (hz : Reaches m q narrow z) (hxy : x ≤ y)
    (hyz : y ≤ z) : Reaches m q narrow y := by
  refine ⟨hx.low.trans hxy, hyz.trans hz.high, fun h => ?_⟩
  rcases h with h | h
  · exact hx.even (.inl (le_antisymm (hxy.trans_eq h) hx.low))
  · exact hz.even (.inr (le_antisymm hz.high (h.symm.trans_le hyz)))

theorem lowEnd_lt (m : Nat) (q : Int) (narrow : Bool) : lowEnd m q narrow < m * 2 ^ q := by
  have hp := two_zpow_pos (q - 2)
  rw [four_mul_two_zpow q, ← mul_assoc, lowEnd]
  refine mul_lt_mul_of_pos_right ?_ hp
  split_ifs <;> linarith

theorem highEnd_eq (m : Nat) (q : Int) : highEnd m q = m * 2 ^ q + 2 ^ (q - 1) := by
  rw [highEnd, four_mul_two_zpow q, two_mul_two_zpow q]
  ring

theorem sub_le_lowEnd (m : Nat) (q : Int) (narrow : Bool) :
    (m : ℚ) * 2 ^ q - 2 ^ (q - 1) ≤ lowEnd m q narrow := by
  rw [four_mul_two_zpow q, two_mul_two_zpow q, ← mul_assoc, ← sub_mul, lowEnd]
  refine mul_le_mul_of_nonneg_right ?_ (two_zpow_pos _).le
  split_ifs <;> linarith

theorem Reaches.of_lt (hlow : lowEnd m q narrow < x) (hhigh : x < highEnd m q) :
    Reaches m q narrow x :=
  ⟨hlow.le, hhigh.le, fun h => h.elim (absurd · hlow.ne') (absurd · hhigh.ne)⟩

theorem lt_highEnd (m : Nat) (q : Int) : (m : ℚ) * 2 ^ q < highEnd m q := by
  rw [highEnd_eq]
  linarith [two_zpow_pos (q - 1)]

theorem Reaches.self (m : Nat) (q : Int) (narrow : Bool) : Reaches m q narrow (m * 2 ^ q) :=
  .of_lt (lowEnd_lt m q narrow) (lt_highEnd m q)

/-- Above the value it does not matter how wide the gap below it is. -/
theorem Reaches.of_le {narrow' : Bool} (h : Reaches m q narrow x) (hx : m * 2 ^ q ≤ x) :
    Reaches m q narrow' x := by
  have hlow := (lowEnd_lt m q narrow').trans_le hx
  exact ⟨hlow.le, h.high, fun he => h.even (he.imp (absurd · hlow.ne') id)⟩

theorem lowEnd_narrow (m : Nat) (q : Int) : lowEnd m q true = lowEnd (2 * m) (q - 1) false := by
  rw [lowEnd, lowEnd, if_pos rfl, if_neg Bool.false_ne_true, two_zpow_pred (q - 2),
    sub_right_comm q 1 2]
  push_cast
  ring

/-- Below the value a narrow gap is that of twice the number with the next lower exponent. -/
theorem reaches_narrow_iff (hm : m % 2 = 0) (hx : x < m * 2 ^ q) :
    Reaches m q true x ↔ Reaches (2 * m) (q - 1) false x := by
  have hhigh := lt_highEnd m q
  have hhigh' : (m : ℚ) * 2 ^ q < highEnd (2 * m) (q - 1) := by
    rw [highEnd_eq, two_zpow_pred q]
    push_cast
    linarith [two_zpow_pos (q - 1 - 1)]
  constructor
  · exact fun h => ⟨lowEnd_narrow m q ▸ h.low, (hx.trans hhigh').le, fun _ => by omega⟩
  · exact fun h => ⟨lowEnd_narrow m q ▸ h.low, (hx.trans hhigh).le, fun _ => hm⟩

theorem two_zpow_le_lowEnd (hm : 0 < m) : (2 : ℚ) ^ (q - 1) ≤ lowEnd m q narrow := by
  have hm : (1 : ℚ) ≤ m := by exact_mod_cast hm
  rw [two_mul_two_zpow, lowEnd]
  refine mul_le_mul_of_nonneg_right ?_ (two_zpow_pos _).le
  split_ifs <;> linarith

theorem Reaches.pos (hm : 0 < m) (h : Reaches m q narrow x) : 0 < x :=
  (two_zpow_pos (q - 1)).trans_le ((two_zpow_le_lowEnd hm).trans h.low)

/-- The reach is as wide as the gap, or three quarters of it where the gap below is narrow. -/
theorem highEnd_sub_lowEnd (m : Nat) (q : Int) (narrow : Bool) :
    highEnd m q - lowEnd m q narrow = (if narrow then 3 else 4) * 2 ^ (q - 2) := by
  rw [highEnd, lowEnd, ← sub_mul]
  congr 1
  split_ifs <;> ring

theorem Reaches.sub_le (hx : Reaches m q narrow x) (hy : Reaches m q narrow y) :
    x - y ≤ 2 ^ q := by
  refine (sub_le_sub hx.high hy.low).trans ?_
  rw [highEnd_sub_lowEnd, four_mul_two_zpow q]
  refine mul_le_mul_of_nonneg_right ?_ (two_zpow_pos _).le
  split_ifs <;> norm_num

end

end BusCompliance
