import BusCompliance.Number.FloatText
import BusCompliance.Proofs.Number.Pattern
import BusCompliance.Proofs.Number.Shortest
import BusCompliance.Proofs.Value.Text
import Mathlib.Data.List.TakeWhile

/-!
# Floats as text

A decimal in positional form is read as a decimal of the same value, whether its zeros stand behind
the digits, its point among them, or zeros between the two.
-/

namespace BusCompliance

/-! ## Runs of digits -/

theorem isDigit_digitChar {d : Nat} (h : d < 10) : isDigit (digitChar d) = true := by
  rw [isDigit, digitValue?_digitChar h]
  rfl

namespace Natural

theorem isDigit_of_mem_digits {n : Nat} {c : Char} (h : c ∈ digits n) : isDigit c = true := by
  obtain ⟨d, hd, rfl⟩ := mem_digits h
  exact isDigit_digitChar hd

theorem foldl_appendDigit_zeros (n k : Nat) :
    (List.replicate k '0').foldl appendDigit (some n) = some (n * 10 ^ k) := by
  induction k generalizing n with
  | zero => simp
  | succ k ih =>
    have hstep : appendDigit (some n) '0' = some (10 * n) := rfl
    rw [List.replicate_succ, List.foldl_cons, hstep, ih, Nat.pow_succ]
    congr 1
    ring

theorem value?_append_zeros {cs : List Char} {n : Nat} (h : value? cs = some n) (k : Nat) :
    value? (cs ++ List.replicate k '0') = some (n * 10 ^ k) := by
  rw [value?, List.foldl_append]
  rw [value?] at h
  rw [h, foldl_appendDigit_zeros]

theorem value?_zeros_append (k : Nat) (cs : List Char) :
    value? (List.replicate k '0' ++ cs) = value? cs := by
  rw [value?, List.foldl_append, foldl_appendDigit_zeros, Nat.zero_mul, value?]

theorem ofDigits?_eq_some {cs : List Char} {n : Nat} (hne : cs ≠ []) (h : value? cs = some n) :
    ofDigits? cs = some n := by
  rw [ofDigits?, if_neg (by simpa using hne), h]

end Natural

namespace FloatLiteral

variable {whole fraction : List Char} {n : Nat}

theorem spanDigits_eq_self {cs : List Char} (h : ∀ c ∈ cs, isDigit c = true) :
    spanDigits cs = (cs, []) := by
  rw [spanDigits, List.takeWhile_eq_self_iff.mpr h, List.dropWhile_eq_nil_iff.mpr h]

theorem spanDigits_point (h : ∀ c ∈ whole, isDigit c = true) (rest : List Char) :
    spanDigits (whole ++ '.' :: rest) = (whole, '.' :: rest) := by
  have hstop : ¬isDigit '.' = true := by decide
  rw [spanDigits, List.takeWhile_append_of_pos h, List.dropWhile_append_of_pos h,
    List.takeWhile_cons_of_neg hstop, List.dropWhile_cons_of_neg hstop, List.append_nil]

theorem unsigned?_whole (hw : ∀ c ∈ whole, isDigit c = true)
    (h : Natural.ofDigits? whole = some n) : unsigned? whole = some ⟨n, 0⟩ := by
  simp [unsigned?, spanDigits_eq_self hw, h, exponent?]

theorem unsigned?_point (hw : ∀ c ∈ whole, isDigit c = true)
    (hf : ∀ c ∈ fraction, isDigit c = true)
    (h : Natural.ofDigits? (whole ++ fraction) = some n) :
    unsigned? (whole ++ '.' :: fraction) = some ⟨n, -fraction.length⟩ := by
  simp [unsigned?, spanDigits_point hw, spanDigits_eq_self hf, h, exponent?]

/-- What begins with a digit behind its sign, if any, is a number. -/
theorem read?_of_sign {d : Nat} (hd : d < 10) {cs r : List Char} {negative : Bool}
    (hsign : sign cs = (negative, digitChar d :: r)) :
    read? cs = (unsigned? (digitChar d :: r)).map (.decimal negative) := by
  have first : ∀ d < 10, (digitChar d).toLower ≠ 'i' ∧ (digitChar d).toLower ≠ 'n' := by decide
  obtain ⟨hi, hn⟩ := first d hd
  unfold read?
  rw [hsign]
  dsimp only
  rw [List.map_cons, if_neg, if_neg]
  · intro h
    exact hn (List.cons.inj h).1
  · rintro (h | h)
    · exact hi (List.cons.inj h).1
    · exact hi (List.cons.inj h).1

theorem sign_signed {d : Nat} (hd : d < 10) (r : List Char) (negative : Bool) :
    sign (FloatType.signed negative (digitChar d :: r)) = (negative, digitChar d :: r) := by
  have first : ∀ d < 10, digitChar d ≠ '-' ∧ digitChar d ≠ '+' := by decide
  obtain ⟨hminus, hplus⟩ := first d hd
  cases negative with
  | true => rfl
  | false =>
    unfold FloatType.signed sign
    simp only [Bool.false_eq_true, if_false]
    split
    · rename_i h; exact absurd (List.cons.inj h).1 hminus
    · rename_i h; exact absurd (List.cons.inj h).1 hplus
    · rfl

end FloatLiteral

namespace Decimal

theorem exists_positional_cons (d : Decimal) :
    ∃ k r, k < 10 ∧ d.positional = digitChar k :: r := by
  obtain ⟨k, r, hk, hds⟩ := Natural.exists_digits_cons d.digits
  unfold positional
  dsimp only
  split
  · exact ⟨k, _, hk, by rw [hds, List.cons_append]⟩
  · split
    · rename_i hlt
      have hpos : (Natural.digits d.digits).length - (-d.exponent).toNat ≠ 0 := by omega
      obtain ⟨n, hn⟩ := Nat.exists_eq_succ_of_ne_zero hpos
      exact ⟨k, _, hk, by rw [hn, hds, List.take_succ_cons, List.cons_append]⟩
    · exact ⟨0, _, by decide, rfl⟩

/-- The positional form is read as a decimal of the same value. -/
theorem unsigned?_positional (d : Decimal) :
    ∃ d', FloatLiteral.unsigned? d.positional = some d' ∧ d'.value = d.value := by
  have hdigit {c : Char} (h : c ∈ Natural.digits d.digits) : isDigit c = true :=
    Natural.isDigit_of_mem_digits h
  have hzero {c : Char} {k : Nat} (h : c ∈ List.replicate k '0') : isDigit c = true := by
    rw [List.eq_of_mem_replicate h]
    rfl
  have hvalue := Natural.value?_digits d.digits
  have hne := Natural.digits_ne_nil d.digits
  unfold positional
  dsimp only
  generalize Natural.digits d.digits = ds at *
  split
  · -- Zeros behind the digits: they are read as digits too.
    rename_i h
    refine ⟨⟨d.digits * 10 ^ d.exponent.toNat, 0⟩, FloatLiteral.unsigned?_whole ?_ ?_, ?_⟩
    · exact fun c hc => (List.mem_append.mp hc).elim hdigit hzero
    · exact Natural.ofDigits?_eq_some (by simp [hne]) (Natural.value?_append_zeros hvalue _)
    · obtain ⟨n, hn⟩ := Int.eq_ofNat_of_zero_le h
      simp [value, hn]
  · rename_i h
    have places : -(((-d.exponent).toNat : Nat) : Int) = d.exponent := by omega
    split
    · -- A point among the digits.
      rename_i hlt
      refine ⟨d, ?_, rfl⟩
      rw [FloatLiteral.unsigned?_point (fun c hc => hdigit (List.mem_of_mem_take hc))
        (fun c hc => hdigit (List.mem_of_mem_drop hc))
        (Natural.ofDigits?_eq_some (by simpa using hne) (by rwa [List.take_append_drop])),
        List.length_drop, Nat.sub_sub_self hlt.le, places]
    · -- A point before all of them, and zeros between.
      rename_i hge
      refine ⟨d, ?_, rfl⟩
      have hread : Natural.value? (['0'] ++ (List.replicate ((-d.exponent).toNat - ds.length) '0' ++
          ds)) = some d.digits := by
        rw [← List.replicate_one, ← List.append_assoc, List.replicate_append_replicate,
          Natural.value?_zeros_append, hvalue]
      have hwhole (c : Char) (hc : c ∈ ['0']) : isDigit c = true := by
        rw [List.mem_singleton.mp hc]
        rfl
      refine (FloatLiteral.unsigned?_point hwhole
        (fun c hc => (List.mem_append.mp hc).elim hzero hdigit)
        (Natural.ofDigits?_eq_some (List.cons_ne_nil _ _) hread)).trans ?_
      rw [List.length_append, List.length_replicate, Nat.sub_add_cancel (Nat.not_lt.mp hge), places]

theorem read?_positional (d : Decimal) (negative : Bool) :
    ∃ d', FloatLiteral.read? (FloatType.signed negative d.positional) =
      some (.decimal negative d') ∧ d'.value = d.value := by
  obtain ⟨d', hread, hvalue⟩ := unsigned?_positional d
  obtain ⟨k, r, hk, hd⟩ := exists_positional_cons d
  rw [hd] at hread
  refine ⟨d', ?_, hvalue⟩
  rw [hd, FloatLiteral.read?_of_sign hk (FloatLiteral.sign_signed hk r negative), hread,
    Option.map_some]

end Decimal

/-! ## Reading a decimal -/

namespace FloatType

variable {t : FloatType} {bits : t.Bits} {negative : Bool} {m : Nat} {q : Int}

/-- Within four hundred powers of ten a decimal is rounded as the quotient that it is. -/
theorem exists_ofDecimal (negative : Bool) {d : Decimal}
    (hlow : (10 : ℚ) ^ (-400 : Int) ≤ d.value) (hhigh : d.value < 10 ^ (400 : Int)) :
    ∃ num den : Nat, 0 < num ∧ 0 < den ∧ (num : ℚ) / den = d.value ∧
      ∀ t : FloatType, t.ofDecimal negative d = t.nearest negative num den := by
  have hpos : 0 < d.digits := by
    refine Nat.pos_of_ne_zero fun h => ?_
    rw [Decimal.value, h, Nat.cast_zero, zero_mul] at hlow
    exact absurd hlow (not_le.mpr (ten_zpow_pos _))
  have hT := ten_zpow_pos d.exponent
  -- The exponent of the first power of ten above the value.
  have htop : d.value < 10 ^ (d.exponent + Decimal.length d.digits) := by
    rw [ten_zpow_add_natCast, Decimal.value]
    exact mul_lt_mul_of_pos_right (by exact_mod_cast Decimal.lt_pow_length d.digits) hT
  have hlead : (10 : ℚ) ^ (d.exponent + (Decimal.length d.digits - 1 : Nat)) ≤ d.value := by
    rw [ten_zpow_add_natCast, Decimal.value]
    exact mul_le_mul_of_nonneg_right (by exact_mod_cast Decimal.pow_length_le hpos) hT.le
  have habove := lt_of_ten_zpow_lt (hlow.trans_lt htop)
  have hbelow := lt_of_ten_zpow_lt (hlead.trans_lt hhigh)
  have hlen := Decimal.length_pos d.digits
  refine ⟨d.digits * 10 ^ d.exponent.toNat, 10 ^ (-d.exponent).toNat, by positivity, by positivity,
    ?_, fun t => ?_⟩
  · exact_mod_cast cast_mul_pow_div_cast_pow d.digits 10 d.exponent
  · unfold ofDecimal
    dsimp only
    rw [if_neg (by omega), if_neg (by omega)]

theorem text_finite (h : t.decode bits = .finite negative m q) :
    (t.text bits).toList = signed negative
      (if m = 0 then ⟨0, 0⟩ else Decimal.shortest .away m q (t.narrowBelow bits)).positional := by
  rw [text, h]
  exact String.toList_ofList

theorem read?_zero (t : FloatType) (negative : Bool) :
    t.read? (signed negative (⟨0, 0⟩ : Decimal).positional) = some (t.nearest negative 0 1) := by
  have hread : FloatLiteral.read? (signed negative (⟨0, 0⟩ : Decimal).positional) =
      some (.decimal negative ⟨0, 0⟩) := by
    cases negative <;> decide +kernel
  rw [read?, hread]
  rfl

/-- Both formats stay well within four hundred powers of ten. -/
theorem two_zpow_le_ten_zpow : (2 : ℚ) ^ (1300 : Int) ≤ 10 ^ (400 : Int) := by
  have h : ((2 : ℚ) ^ (13 : Int)) ^ (100 : Int) ≤ (10 ^ (4 : Int)) ^ (100 : Int) :=
    zpow_le_zpow_left₀ (by norm_num) (by norm_num) (by norm_num)
  rw [← zpow_mul, ← zpow_mul] at h
  exact h

/-- The text of a finite pattern is the decimal found for it, and either format reads that as the
quotient it is. -/
theorem exists_read?_text (h : t.decode bits = .finite negative m q) (hm : 0 < m) :
    ∃ (d : Decimal) (num den : Nat), Decimal.IsShortest m q (t.narrowBelow bits) d ∧ 0 < num ∧
      0 < den ∧ (num : ℚ) / den = d.value ∧
      ∀ t' : FloatType, t'.read? (t.text bits).toList = some (t'.nearest negative num den) := by
  obtain ⟨-, hfits, -, -⟩ := decode_eq_finite_iff.mp h
  have hnarrow := narrowBelow_eq h
  have hlast := exponent_lt h
  have hfew : 4 * m < (if t.narrowBelow bits then 3 else 4) * 10 ^ 16 := by
    rw [hnarrow]
    split
    · rename_i hn
      obtain ⟨rfl, -⟩ := isNarrow_iff.mp hn
      cases t <;> decide
    · have hlt := hfits.lt
      cases t <;> simp only [fractionBits] at hlt <;> omega
  obtain ⟨d, hd, hshortest⟩ := Decimal.shortest_spec (q := q) .away hm hfew
  obtain ⟨d', hread, hd'⟩ := Decimal.read?_positional
    (Decimal.shortest .away m q (t.narrowBelow bits)) negative
  rw [hd] at hd'
  have hlow : (10 : ℚ) ^ (-400 : Int) ≤ d'.value := by
    have hleast : -1299 ≤ q := by
      have := hfits.least_le
      cases t <;> simp only [leastExponent] at this <;> omega
    rw [hd']
    calc (10 : ℚ) ^ (-400 : Int) ≤ 2 ^ (-1300 : Int) := by
          rw [zpow_neg, zpow_neg]
          exact inv_anti₀ (two_zpow_pos _) two_zpow_le_ten_zpow
      _ ≤ 2 ^ (q - 1) := zpow_le_zpow_right₀ (by norm_num) (by omega)
      _ ≤ d.value := (two_zpow_le_lowEnd hm).trans hshortest.reaches.low
  have hhigh : d'.value < 10 ^ (400 : Int) := by
    have hmost : q + t.fractionBits + 1 ≤ 1300 := by
      cases t <;> simp only [leastExponent, topExponent, fractionBits] at hlast ⊢ <;> omega
    rw [hd']
    calc d.value < 2 * ((2 ^ t.fractionBits : Nat) : ℚ) * 2 ^ q :=
          hshortest.reaches.high.trans_lt (highEnd_lt hfits.lt)
      _ = 2 ^ (q + t.fractionBits + 1) := by
          rw [two_zpow_succ, two_zpow_add_natCast, mul_assoc]
      _ ≤ 2 ^ (1300 : Int) := zpow_le_zpow_right₀ (by norm_num) hmost
      _ ≤ 10 ^ (400 : Int) := two_zpow_le_ten_zpow
  obtain ⟨num, den, hnum, hden, hvalue, hround⟩ := exists_ofDecimal negative hlow hhigh
  refine ⟨d, num, den, hshortest, hnum, hden, hvalue.trans hd', fun t' => ?_⟩
  rw [text_finite h, if_neg hm.ne', read?, hread, Option.map_some]
  exact congrArg some (hround t')

/-- What is written of a finite pattern is read as that very pattern. -/
theorem read?_text (h : t.decode bits = .finite negative m q) :
    t.read? (t.text bits).toList = some bits := by
  rcases Nat.eq_zero_or_pos m with rfl | hm
  · rw [text_finite h, if_pos rfl, read?_zero]
    obtain ⟨rfl, hfits, hcode, -⟩ := decode_eq_finite_iff.mp h
    have hq : q = t.leastExponent := by
      have hF := Nat.two_pow_pos t.fractionBits
      have hleast := hfits.least_le
      have hlead := hfits.leading
      omega
    have hzero : t.magnitude bits = t.nearestCode 0 1 := by
      rw [← hcode, hq, code, Int.sub_self, Int.toNat_zero, Nat.zero_mul, nearestCode, if_pos rfl]
    rw [nearest, ← hzero, ofNat_magnitude]
  · obtain ⟨d, num, den, hd, hnum, hden, hvalue, hread⟩ := exists_read?_text h hm
    rw [hread t, (nearest_eq_iff h hnum hden).mpr ⟨rfl, hvalue ▸ hd.reaches⟩]

/-! ## Widening -/

/-- Infinities and NaN stay what they are. -/
theorem truncate?_widen_of_none {bits : FloatType.f32.Bits}
    (h : FloatType.f32.truncate? bits = none) : FloatType.f64.truncate? (widen bits) = none := by
  unfold truncate? at h
  cases hd : FloatType.f32.decode bits with
  | nan =>
    rw [widen, text, hd]
    dsimp only
    decide +kernel
  | infinite negative =>
    rw [widen, text, hd]
    dsimp only
    cases negative <;> decide +kernel
  | finite negative m q =>
    rw [hd] at h
    cases h

/-- A zero is widened to the zero of its sign. -/
theorem decode_widen_zero {bits : FloatType.f32.Bits}
    (h : FloatType.f32.decode bits = .finite negative 0 q) :
    FloatType.f64.decode (widen bits) = .finite negative 0 (-1074) := by
  rw [widen, text_finite h, if_pos rfl, read?_zero, Option.getD_some]
  cases negative <;> decide

theorem fits_single {bits : FloatType.f32.Bits} (h : FloatType.f32.decode bits = .finite negative m q) :
    m < 2 ^ 24 ∧ -149 ≤ q ∧ q < 106 ∧ (-149 < q → 2 ^ 23 ≤ m) := by
  obtain ⟨-, ⟨hlt, hleast, hlead⟩, -, -⟩ := decode_eq_finite_iff.mp h
  exact ⟨hlt, hleast, exponent_lt h, hlead⟩

/-- A single other than zero is widened to the double nearest to its shortest decimal. -/
theorem exists_widen {bits : FloatType.f32.Bits}
    (h : FloatType.f32.decode bits = .finite negative m q) (hm : 0 < m) :
    ∃ d n e, Decimal.IsShortest m q (narrowBelow .f32 bits) d ∧
      FloatType.f64.decode (widen bits) = .finite negative n e ∧ FloatType.f64.Fits n e ∧
      Reaches n e (FloatType.f64.isNarrow n e) d.value := by
  obtain ⟨hlt, -, hmost, -⟩ := fits_single h
  obtain ⟨d, num, den, hd, hnum, hden, hvalue, hread⟩ := exists_read?_text h hm
  have hfinite : (num : ℚ) / den < ((2 ^ 52 : Nat) : ℚ) * 2 ^ (-1074 + 2047 - 2 : Int) :=
    calc (num : ℚ) / den ≤ highEnd m q := hvalue.trans_le hd.reaches.high
      _ < 2 * ((2 ^ 23 : Nat) : ℚ) * 2 ^ q := highEnd_lt (t := .f32) hlt
      _ ≤ ((2 ^ 52 : Nat) : ℚ) * 2 ^ (-1074 + 2047 - 2 : Int) := by
          refine mul_le_mul (by norm_num) ?_ (two_zpow_pos _).le (by positivity)
          exact zpow_le_zpow_right₀ (by norm_num) (by omega)
  obtain ⟨n, e, hdecode, hfits, hreach⟩ :=
    exists_decode_nearest .f64 negative hnum hden hfinite
  refine ⟨d, n, e, hd, ?_, hfits, hvalue ▸ hreach⟩
  rw [widen, hread .f64, Option.getD_some, hdecode]

end FloatType

end BusCompliance
