import BusCompliance.Proofs.Number.Digits
import BusCompliance.Proofs.Number.Order
import BusCompliance.Proofs.Text.Dotted
import BusCompliance.Proofs.Value.Narrowing
import BusCompliance.Template.Constraint

/-!
# Bounds of integers

The bounds of a constraint are doubles, and an integer is rounded to one before it is compared with
them. A bound is met by the integers on its side and by those that have its double, which are none
but itself below 2^53.
-/

namespace BusCompliance

/-! ## Whole numbers as text -/

namespace Whole

variable {cs : List Char} {a : Int}

/-- A whole number is digits behind a sign, if any. -/
theorem exists_of_read? (h : read? true cs = some a) :
    ∃ negative ds n, FloatLiteral.sign cs = (negative, ds) ∧ Natural.ofDigits? ds = some n ∧
      FloatType.withSign negative n = a := by
  unfold read? at h
  split at h
  · obtain ⟨n, hn, rfl⟩ := Option.map_eq_some_iff.mp h
    exact ⟨false, _, n, rfl, hn, rfl⟩
  · obtain ⟨i, hi, rfl⟩ := Option.map_eq_some_iff.mp h
    obtain ⟨n, hn, hcast⟩ := Option.bind_eq_some_iff.mp hi
    cases hcast
    exact ⟨true, _, n, rfl, hn, rfl⟩
  · rename_i hplus hminus
    obtain ⟨n, hn, rfl⟩ := Option.map_eq_some_iff.mp h
    refine ⟨false, cs, n, ?_, hn, rfl⟩
    unfold FloatLiteral.sign
    split
    · exact absurd rfl (hminus _)
    · exact absurd rfl (hplus _)
    · rfl

theorem mem_of_read? (h : read? true cs = some a) {c : Char} (hc : c ∈ cs) :
    c = '+' ∨ c = '-' ∨ isDigit c = true := by
  obtain ⟨negative, ds, n, hsign, hn, -⟩ := exists_of_read? h
  have hdigits := (Natural.isDigit_of_ofDigits? hn).2
  unfold FloatLiteral.sign at hsign
  split at hsign
  all_goals
    obtain ⟨-, rfl⟩ := Prod.mk.inj hsign
    grind

theorem isBlank_of_read? (h : read? true cs = some a) {c : Char} (hc : c ∈ cs) :
    Text.isBlank c = false := by
  rcases mem_of_read? h hc with rfl | rfl | hdigit
  · decide
  · decide
  · obtain ⟨d, hd, rfl⟩ := exists_digitChar hdigit
    exact isBlank_digitChar hd

theorem dot_not_mem_of_read? (h : read? true cs = some a) : '.' ∉ cs := by
  intro hc
  rcases mem_of_read? h hc with hplus | hminus | hdigit
  · cases hplus
  · cases hminus
  · cases hdigit

end Whole

/-! ## Their doubles -/

theorem Decimal.pow_le_of_lt_length {n e : Nat} (hn : n ≠ 0) (he : e < length n) : 10 ^ e ≤ n :=
  (Nat.pow_le_pow_right (by decide) (by omega)).trans (pow_length_le (Nat.pos_of_ne_zero hn))

namespace FloatType

/-- A decimal with no places is rounded as the whole number it is, even far beyond the format. -/
theorem ofDecimal_whole (t : FloatType) (negative : Bool) (n : Nat) :
    t.ofDecimal negative ⟨n, 0⟩ = t.nearest negative n 1 := by
  unfold ofDecimal
  dsimp only
  split_ifs with hzero hbeyond
  · have hlen := Decimal.length_pos n
    rw [show n = 0 by omega]
  · have hlong : 400 < Decimal.length n := by omega
    have hbig := Decimal.pow_le_of_lt_length (fun hn => hzero (.inl hn)) hlong
    have htop : t.nearestCode (10 ^ (400 : Nat)) 1 = t.infinityCode := by
      cases t <;> decide +kernel
    have hcode : t.nearestCode n 1 = t.infinityCode :=
      le_antisymm (t.nearestCode_le n 1) (htop.symm.trans_le (nearestCode_one_mono hbig))
    rw [infinity, nearest, hcode]
  · simp

theorem read?_whole (t : FloatType) {cs : List Char} {a : Int} (h : Whole.read? true cs = some a) :
    ∃ bits, t.read? cs = some bits ∧ t.rank? bits = some (t.wholeRank a) := by
  obtain ⟨negative, ds, n, hsign, hn, rfl⟩ := Whole.exists_of_read? h
  obtain ⟨hne, hdigits⟩ := Natural.isDigit_of_ofDigits? hn
  obtain ⟨c, r, rfl⟩ := List.exists_cons_of_ne_nil hne
  obtain ⟨d, hd, rfl⟩ := exists_digitChar (hdigits c List.mem_cons_self)
  refine ⟨t.nearest negative n 1, ?_, t.rank?_nearest_withSign negative n⟩
  rw [read?, FloatLiteral.read?_of_sign hd hsign, FloatLiteral.unsigned?_whole hdigits hn,
    Option.map_some, Option.map_some, ofLiteral, ofDecimal_whole]

end FloatType

namespace Constraint

/-- Two whole numbers have one double. -/
def SameDouble (j k : Int) : Prop := FloatType.f64.ofInt j = FloatType.f64.ofInt k

variable {x y : String} {a b j : Int} {t : IntegerType}

/-- Only large whole numbers share a double, and only with near ones. -/
theorem SameDouble.near (n : t.Number) (h : SameDouble j n.val) (hne : j ≠ n.val) :
    2 ^ (53 : Nat) ≤ |j| ∧ 2 ^ (53 : Nat) ≤ |n.val| ∧
      2 ^ (52 : Nat) * |j - n.val| ≤ |n.val| := by
  have hk : n.val.natAbs < 2 ^ 64 := by
    by_contra hge
    have hnone := t.number?_eq_none (Nat.not_lt.mp hge)
    rw [IntegerType.number?_val] at hnone
    cases hnone
  have hfinite : (n.val.natAbs : ℚ) < ((2 ^ FloatType.f64.fractionBits : Nat) : ℚ) *
      2 ^ (FloatType.f64.leastExponent + FloatType.f64.topExponent - 2) := by
    calc (n.val.natAbs : ℚ) < 2 ^ (64 : Nat) := by exact_mod_cast hk
      _ = 2 ^ (52 : Nat) * 2 ^ (12 : Int) := by norm_num
      _ ≤ 2 ^ (52 : Nat) * 2 ^ (971 : Int) := by
          refine mul_le_mul_of_nonneg_left (zpow_le_zpow_right₀ ?_ ?_) ?_ <;> norm_num
      _ = _ := by
          rw [Nat.cast_pow, Nat.cast_ofNat]
          rfl
  obtain ⟨hj, hn, hnear⟩ := FloatType.ofInt_merges hfinite h hne
  simp only [FloatType.fractionBits] at hj hn hnear
  omega

/-! ## The constraint of a text -/

theorem number?_whole {cs : List Char} (h : Whole.read? true cs = some a) :
    ∃ bits, number? cs = some bits ∧
      FloatType.f64.rank? bits = some (FloatType.f64.wholeRank a) := by
  rw [number?, Text.trimChars_eq_self fun c hc => Whole.isBlank_of_read? h hc]
  exact FloatType.f64.read?_whole h

/-- A whole number with one character behind it is no range. -/
theorem ofText_bound (h : Whole.read? true x.toList = some a) {c : Char}
    (hblank : Text.isBlank c = false) (hdot : c ≠ '.') {s : String}
    (hs : s.toList = x.toList ++ [c]) :
    ofText s = (bound? (x.toList ++ [c])).getD (.exact (String.ofList (x.toList ++ [c]))) := by
  have htrim : Text.trimChars (x.toList ++ [c]) = x.toList ++ [c] := by
    refine Text.trimChars_eq_self fun d hd => ?_
    rcases List.mem_append.mp hd with hd | hd
    · exact Whole.isBlank_of_read? h hd
    · rwa [List.mem_singleton.mp hd]
  have hmark : Text.splitMark "..".toList (x.toList ++ [c]) = none := by
    rw [← Option.not_isSome_iff_eq_none, Text.isSome_splitMark_iff (by decide)]
    intro hinfix
    have hmem : '.' ∈ x.toList ++ [c] := hinfix.subset (by decide)
    simp [Whole.dot_not_mem_of_read? h, Ne.symm hdot] at hmem
  rw [ofText, hs, htrim, range?, hmark]
  rfl

theorem ofText_atLeast (hx : Whole.read? true x.toList = some a) :
    ∃ bits, ofText (x ++ "+") = .atLeast bits ∧
      FloatType.f64.rank? bits = some (FloatType.f64.wholeRank a) := by
  obtain ⟨bits, hbits, hrank⟩ := number?_whole hx
  refine ⟨bits, ?_, hrank⟩
  rw [ofText_bound hx (c := '+') (by decide) (by decide) String.toList_append, bound?,
    List.getLast?_concat, List.dropLast_concat]
  simp [hbits]

theorem ofText_atMost (hy : Whole.read? true y.toList = some b) :
    ∃ bits, ofText (y ++ "-") = .atMost bits ∧
      FloatType.f64.rank? bits = some (FloatType.f64.wholeRank b) := by
  obtain ⟨bits, hbits, hrank⟩ := number?_whole hy
  refine ⟨bits, ?_, hrank⟩
  rw [ofText_bound hy (c := '-') (by decide) (by decide) String.toList_append, bound?,
    List.getLast?_concat, List.dropLast_concat]
  simp [hbits]

theorem ofText_range (hx : Whole.read? true x.toList = some a)
    (hy : Whole.read? true y.toList = some b) :
    ∃ low high, ofText (x ++ ".." ++ y) = .range low high ∧
      FloatType.f64.rank? low = some (FloatType.f64.wholeRank a) ∧
      FloatType.f64.rank? high = some (FloatType.f64.wholeRank b) := by
  obtain ⟨low, hlow, hlowRank⟩ := number?_whole hx
  obtain ⟨high, hhigh, hhighRank⟩ := number?_whole hy
  refine ⟨low, high, ?_, hlowRank, hhighRank⟩
  have hcs : (x ++ ".." ++ y).toList = x.toList ++ ['.', '.'] ++ y.toList := by
    rw [String.toList_append, String.toList_append]
    rfl
  have htrim : Text.trimChars (x.toList ++ ['.', '.'] ++ y.toList) =
      x.toList ++ ['.', '.'] ++ y.toList := by
    refine Text.trimChars_eq_self fun c hc => ?_
    simp only [List.mem_append, List.mem_cons, List.not_mem_nil, or_false, or_self] at hc
    rcases hc with (hc | rfl) | hc
    · exact Whole.isBlank_of_read? hx hc
    · decide
    · exact Whole.isBlank_of_read? hy hc
  have hsplit := Text.splitMark_append (Whole.dot_not_mem_of_read? hx) ['.'] y.toList
  have hrange : range? (x.toList ++ ['.', '.'] ++ y.toList) = some (.range low high) := by
    have hmark : "..".toList = ['.', '.'] := rfl
    rw [range?, hmark, hsplit]
    simp [hlow, hhigh]
  rw [ofText, hcs, htrim, hrange]
  rfl

/-! ## Which integers they allow -/

/-- The constraint of two whole numbers with dots between them, and that of one with a sign behind
it, allow the integers on the right side of the bounds, and besides those that have the double of a
bound. -/
theorem allows_integer_iff (hx : Whole.read? true x.toList = some a)
    (hy : Whole.read? true y.toList = some b) (n : t.Number) :
    ((ofText (x ++ ".." ++ y)).allows (.integer t n) = true ↔
      (a ≤ n.val ∨ SameDouble a n.val) ∧ (n.val ≤ b ∨ SameDouble n.val b)) ∧
    ((ofText (x ++ "+")).allows (.integer t n) = true ↔ a ≤ n.val ∨ SameDouble a n.val) ∧
    ((ofText (y ++ "-")).allows (.integer t n) = true ↔ n.val ≤ b ∨ SameDouble n.val b) ∧
    ∀ j, SameDouble j n.val → j ≠ n.val →
      2 ^ (53 : Nat) ≤ |j| ∧ 2 ^ (53 : Nat) ≤ |n.val| ∧
        2 ^ (52 : Nat) * |j - n.val| ≤ |n.val| := by
  have hn := FloatType.f64.rank?_ofInt n.val
  obtain ⟨low, high, hrange, hlow, hhigh⟩ := ofText_range hx hy
  obtain ⟨least, hatLeast, hleast⟩ := ofText_atLeast hx
  obtain ⟨most, hatMost, hmost⟩ := ofText_atMost hy
  refine ⟨?_, ?_, ?_, fun j hj hne => hj.near n hne⟩
  · rw [hrange]
    change (FloatType.f64.atMost low _ && FloatType.f64.atMost _ high) = true ↔ _
    rw [Bool.and_eq_true, FloatType.atMost_iff hlow hn, FloatType.atMost_iff hn hhigh,
      FloatType.wholeRank_le_iff, FloatType.wholeRank_le_iff]
    rfl
  · rw [hatLeast]
    exact (FloatType.atMost_iff hleast hn).trans FloatType.wholeRank_le_iff
  · rw [hatMost]
    exact (FloatType.atMost_iff hn hmost).trans FloatType.wholeRank_le_iff

/-- Two to the 53rd is a bound that its successor meets too. -/
theorem allows_integer_iff_two_pow :
    ∃ n : IntegerType.i64.Number, n.val = 2 ^ (53 : Nat) + 1 ∧
      ((ofText "-5..9007199254740992").allows (.integer .i64 n) = true ↔
        (-5 ≤ n.val ∨ SameDouble (-5) n.val) ∧
          (n.val ≤ 9007199254740992 ∨ SameDouble n.val 9007199254740992)) ∧
      SameDouble n.val 9007199254740992 :=
  ⟨⟨9007199254740993, by decide, by decide⟩, by decide,
    (allows_integer_iff (x := "-5") (y := "9007199254740992") (by decide +kernel)
      (by decide +kernel) _).1, by unfold SameDouble; decide +kernel⟩

/-- The successor of two to the 53rd is allowed though the bound is less. -/
theorem allows_above_bound :
    ∃ n : IntegerType.i64.Number, ¬n.val ≤ 9007199254740992 ∧
      (ofText "9007199254740992-").allows (.integer .i64 n) = true :=
  ⟨⟨9007199254740993, by decide, by decide⟩, by decide, by decide +kernel⟩

end Constraint

end BusCompliance
