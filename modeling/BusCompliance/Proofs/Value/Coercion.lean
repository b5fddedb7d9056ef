import BusCompliance.Proofs.Value.Narrowing
import Mathlib.Algebra.Order.Floor.Ring
import Mathlib.Data.Nat.Digits.Defs

/-!
# Values as integers

Every value but a single stands for at most one whole number, and it is coerced to an integer type
exactly if that number is in the range of the type.
-/

namespace BusCompliance

/-! ## Doubles -/

/-- The exact number of a finite pattern. -/
def FloatReading.value? : FloatReading → Option ℚ
  | .finite negative m q => some (if negative then -(m * 2 ^ q) else m * 2 ^ q)
  | _ => none

/-- A number without its fraction. -/
def towardZero (x : ℚ) : Int := if 0 ≤ x then ⌊x⌋ else ⌈x⌉

theorem towardZero_withSign {negative : Bool} {n : Nat} {x : ℚ} (hlow : n ≤ x) (hhigh : x < n + 1) :
    towardZero (if negative then -x else x) = FloatType.withSign negative n := by
  have hx : 0 ≤ x := le_trans (Nat.cast_nonneg n) hlow
  have hfloor : ⌊x⌋ = n := by
    rw [Int.floor_eq_iff]
    exact ⟨by exact_mod_cast hlow, by exact_mod_cast hhigh⟩
  unfold towardZero FloatType.withSign
  cases negative with
  | false => simp [hx, hfloor]
  | true =>
    by_cases hzero : x = 0
    · have hn : n = 0 := by
        rw [hzero] at hlow
        exact_mod_cast le_antisymm hlow (Nat.cast_nonneg n)
      simp [hzero, hn]
    · have hpos : 0 < x := lt_of_le_of_ne hx (Ne.symm hzero)
      simp [hpos, Int.ceil_neg, hfloor]

theorem truncate?_eq_map (t : FloatType) (bits : t.Bits) :
    t.truncate? bits = (t.decode bits).value?.map towardZero := by
  unfold FloatType.truncate? FloatReading.value?
  cases t.decode bits with
  | nan => rfl
  | infinite negative => rfl
  | finite negative m q =>
    obtain ⟨hlow, hhigh⟩ := FloatType.truncated_spec m q
    simp [towardZero_withSign hlow hhigh, FloatType.withSign]

/-! ## Bytes -/

theorem foldl_bigEndian (bytes : List UInt8) (n : Nat) :
    bytes.foldl (fun n b => 256 * n + b.toNat) n =
      256 ^ bytes.length * n + Nat.ofDigits 256 (bytes.reverse.map UInt8.toNat) := by
  induction bytes generalizing n with
  | nil => simp
  | cons b bytes ih =>
    simp only [List.foldl_cons, ih, List.reverse_cons, List.map_append, Nat.ofDigits_append,
      List.length_cons, List.length_map, List.length_reverse, List.map_cons, List.map_nil,
      Nat.ofDigits_singleton, pow_succ]
    ring

theorem IntegerType.number?_eq_some_iff {t : IntegerType} {k : t.Number} {n : Int} :
    t.number? n = some k ↔ k.val = n := by
  constructor
  · exact IntegerType.val_of_number?
  · rintro rfl
    exact t.number?_val k

namespace Value

theorem bigEndian_eq (bytes : List UInt8) :
    bigEndian bytes = Nat.ofDigits 256 (bytes.reverse.map UInt8.toNat) := by
  unfold bigEndian
  simp [foldl_bigEndian]

/-! ## Whole numbers -/

/-- The whole number that a value stands for, for an integer type of some bytes. No string stands
for one. -/
inductive StandsFor (width : Nat) : Value → Int → Prop
  | integer (s : IntegerType) (k : s.Number) : StandsFor width (.integer s k) k.val
  | truth : StandsFor width (.bool true) 1
  | falsity : StandsFor width (.bool false) 0
  | codePoint (c : Char) : StandsFor width (.char c) c.toNat
  | double {bits : FloatType.f64.Bits} {x : ℚ} (h : (FloatType.f64.decode bits).value? = some x) :
      StandsFor width (.float .f64 bits) (towardZero x)
  | bytes {bytes : List UInt8} (hfilled : 1 ≤ bytes.length) (hfits : bytes.length ≤ width) :
      StandsFor width (.binary bytes) (Nat.ofDigits 256 (bytes.reverse.map UInt8.toNat) : Nat)

variable {width : Nat} {v : Value} {n : Int}

theorem integral?_binary (bytes : List UInt8) :
    (Value.binary bytes).integral? width = some n ↔
      1 ≤ bytes.length ∧ bytes.length ≤ width ∧ n = (bigEndian bytes : Int) := by
  unfold integral?
  cases bytes with
  | nil => simp
  | cons b bytes => simp [eq_comm]

theorem StandsFor.integral?_eq (h : v.StandsFor width n) : v.integral? width = some n := by
  cases h with
  | integer s k => rfl
  | truth => rfl
  | falsity => rfl
  | codePoint c => rfl
  | double h => simp [integral?, truncate?_eq_map, h]
  | bytes hfilled hfits =>
    rw [integral?_binary, bigEndian_eq]
    exact ⟨hfilled, hfits, rfl⟩

theorem standsFor_of_integral? (hv : v.type ≠ .float .f32) (h : v.integral? width = some n) :
    v.StandsFor width n := by
  cases v with
  | char c =>
    cases h
    exact .codePoint c
  | bool b =>
    cases b <;> cases h
    · exact .falsity
    · exact .truth
  | integer s k =>
    cases h
    exact .integer s k
  | float t bits =>
    cases t with
    | f32 => exact absurd rfl hv
    | f64 =>
      simp only [integral?, truncate?_eq_map, Option.map_eq_some_iff] at h
      obtain ⟨x, hx, rfl⟩ := h
      exact .double hx
  | string s => cases h
  | binary bytes =>
    obtain ⟨hfilled, hfits, rfl⟩ := (integral?_binary bytes).mp h
    rw [bigEndian_eq]
    exact .bytes hfilled hfits

theorem integral?_eq_some_iff (hv : v.type ≠ .float .f32) :
    v.integral? width = some n ↔ v.StandsFor width n :=
  ⟨standsFor_of_integral? hv, StandsFor.integral?_eq⟩

/-! ## Integer types -/

theorem exists_toInteger_iff {t : IntegerType} (hv : v.type ≠ .float .f32) :
    (∃ k, v.toInteger t = .ok k ∧ k.val = n) ↔
      t.least ≤ n ∧ n ≤ t.greatest ∧ v.StandsFor t.bytes n := by
  simp only [toInteger_eq_ok_iff, Option.bind_eq_some_iff, integral?_eq_some_iff hv,
    IntegerType.number?_eq_some_iff]
  constructor
  · rintro ⟨k, ⟨i, hi, hk⟩, rfl⟩
    exact ⟨k.least_le, k.le_greatest, hk ▸ hi⟩
  · rintro ⟨hlow, hhigh, h⟩
    exact ⟨⟨n, hlow, hhigh⟩, ⟨n, h, rfl⟩, rfl⟩

/-- A value that is no single is coerced to an integer type exactly if the whole number that it
stands for is in range, and then to that number. Any other coercion is refused as a conversion. -/
theorem toInteger_exact (v : Value) (hv : v.type ≠ .float .f32) (t : IntegerType) :
    (∀ n : Int, (∃ k, v.toInteger t = .ok k ∧ k.val = n) ↔
      t.least ≤ n ∧ n ≤ t.greatest ∧ v.StandsFor t.bytes n) ∧
    (∀ e, v.toInteger t = .error e ↔ e = .notNumeric (.integer t) ∧
      ∀ n, v.StandsFor t.bytes n → n < t.least ∨ t.greatest < n) ∧
    (Error.notNumeric (.integer t)).kind = .conversion := by
  refine ⟨fun n => exists_toInteger_iff hv, fun e => ?_, rfl⟩
  constructor
  · intro h
    refine ⟨toInteger_eq_error h, fun n hn => ?_⟩
    by_contra hrange
    rw [not_or, not_lt, not_lt] at hrange
    obtain ⟨k, hk, -⟩ := (exists_toInteger_iff hv).mpr ⟨hrange.1, hrange.2, hn⟩
    rw [h] at hk
    cases hk
  · rintro ⟨rfl, hout⟩
    cases hk : v.toInteger t with
    | error e => rw [toInteger_eq_error hk]
    | ok k =>
      obtain ⟨hlow, hhigh, hn⟩ := (exists_toInteger_iff hv).mp ⟨k, hk, rfl⟩
      have hcase := hout k.val hn
      omega

/-- The double -2^63 narrows to the least of the eight-byte integers. Its negative is beyond the
greatest of them and is refused. -/
theorem toInteger_exact_ends :
    ((Value.float .f64 (BitVec.ofNat _ 0xC3E0000000000000)).type ≠ .float .f32 ∧
      ∃ k, (Value.float .f64 (BitVec.ofNat _ 0xC3E0000000000000)).toInteger .i64 = .ok k ∧
        k.val = -9223372036854775808) ∧
    (Value.float .f64 (BitVec.ofNat _ 0x43E0000000000000)).type ≠ .float .f32 ∧
      (Value.float .f64 (BitVec.ofNat _ 0x43E0000000000000)).toInteger .i64 =
        .error (.notNumeric (.integer .i64)) := by
  have hv (bits : FloatType.f64.Bits) : (Value.float .f64 bits).type ≠ .float .f32 := by
    simp [type]
  refine ⟨⟨hv _, ?_⟩, hv _, ?_⟩
  · have hwhole : (Value.float .f64 (BitVec.ofNat _ 0xC3E0000000000000)).integral? 8 =
        some (-9223372036854775808) := by decide +kernel
    apply ((toInteger_exact _ (hv _) .i64).1 _).mpr
    exact ⟨by decide, by decide, standsFor_of_integral? (hv _) hwhole⟩
  · have hwhole : (Value.float .f64 (BitVec.ofNat _ 0x43E0000000000000)).integral? 8 =
        some 9223372036854775808 := by decide +kernel
    apply ((toInteger_exact _ (hv _) .i64).2.1 _).mpr
    refine ⟨rfl, fun n hn => .inr ?_⟩
    obtain rfl := Option.some.inj (hn.integral?_eq.symm.trans hwhole)
    decide

end Value

end BusCompliance
