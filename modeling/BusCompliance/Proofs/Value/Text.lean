import BusCompliance.Wire.Value

/-!
# Values survive their text

The text that a document holds for a value is read back as that value. Floats come back through
their bits, so that no two patterns are confused.
-/

namespace BusCompliance

/-! ## Blanks -/

namespace Text

theorem trimStartChars_of_head {c : Char} {r : List Char} (h : isBlank c = false) :
    trimStartChars (c :: r) = c :: r := by
  rw [trimStartChars, List.dropWhile_cons_of_neg (by simp [h])]

theorem dropWhile_isBlank_eq_self {cs : List Char} (h : ∀ c ∈ cs, isBlank c = false) :
    cs.dropWhile isBlank = cs := by
  cases cs with
  | nil => rfl
  | cons c r => exact trimStartChars_of_head (h c List.mem_cons_self)

theorem trimChars_eq_self {cs : List Char} (h : ∀ c ∈ cs, isBlank c = false) :
    trimChars cs = cs := by
  have hr : ∀ c ∈ cs.reverse, isBlank c = false := fun c hc => h c (List.mem_reverse.mp hc)
  rw [trimChars, trimStartChars, dropWhile_isBlank_eq_self h, trimEndChars,
    dropWhile_isBlank_eq_self hr, List.reverse_reverse]

end Text

/-! ## Decimal digits -/

theorem isBlank_digitChar {d : Nat} (h : d < 10) : Text.isBlank (digitChar d) = false := by
  have all : ∀ d < 10, Text.isBlank (digitChar d) = false := by decide
  exact all d h

namespace Natural

theorem mem_digits {n : Nat} {c : Char} (h : c ∈ digits n) : ∃ d < 10, c = digitChar d := by
  induction n using digits.induct with
  | case1 n hn =>
    rw [digits, if_pos hn, List.mem_singleton] at h
    exact ⟨n, hn, h⟩
  | case2 n hn ih =>
    rw [digits, if_neg hn, List.mem_append, List.mem_singleton] at h
    rcases h with h | h
    · exact ih h
    · exact ⟨n % 10, Nat.mod_lt n (by omega), h⟩

theorem exists_digits_cons (n : Nat) : ∃ d r, d < 10 ∧ digits n = digitChar d :: r := by
  cases hds : digits n with
  | nil => exact absurd hds (digits_ne_nil n)
  | cons c r =>
    obtain ⟨d, hd, rfl⟩ := mem_digits (hds ▸ List.mem_cons_self)
    exact ⟨d, r, hd, rfl⟩

end Natural

namespace Whole

theorem isBlank_of_mem_digits {n : Int} {c : Char} (h : c ∈ digits n) :
    Text.isBlank c = false := by
  have digit (hc : c ∈ Natural.digits n.natAbs) : Text.isBlank c = false := by
    obtain ⟨d, hd, rfl⟩ := Natural.mem_digits hc
    exact isBlank_digitChar hd
  unfold digits at h
  split at h
  · rcases List.mem_cons.mp h with rfl | h
    · decide
    · exact digit h
  · exact digit h

/-- The digits of a natural number begin with no sign. -/
theorem read?_naturalDigits (signed : Bool) (n : Nat) :
    read? signed (Natural.digits n) = some (n : Int) := by
  have hv := Natural.ofDigits?_digits n
  obtain ⟨d, r, hlt, hd⟩ := Natural.exists_digits_cons n
  have hplus : ∀ d < 10, digitChar d ≠ '+' ∧ digitChar d ≠ '-' := by decide
  obtain ⟨h1, h2⟩ := hplus d hlt
  rw [hd] at hv ⊢
  unfold read?
  split
  · rename_i h; exact absurd (List.cons.inj h).1 h1
  · rename_i h; exact absurd (List.cons.inj h).1 h2
  · rw [hv]; rfl

theorem read?_digits {signed : Bool} {n : Int} (h : signed = true ∨ 0 ≤ n) :
    read? signed (digits n) = some n := by
  unfold digits
  split
  · have hs : signed = true := h.resolve_right (by omega)
    have hn : -(n.natAbs : Int) = n := by omega
    rw [read?, if_pos hs, Natural.ofDigits?_digits]
    exact congrArg some hn
  · have hn : (n.natAbs : Int) = n := by omega
    rw [read?_naturalDigits, hn]

end Whole

namespace IntegerType

theorem isSigned_or_nonneg (t : IntegerType) (n : t.Number) : t.isSigned = true ∨ 0 ≤ n.val := by
  have h := n.least_le
  cases hs : t.isSigned with
  | true => exact .inl rfl
  | false => right; simpa [least, hs] using h

theorem read?_digits (t : IntegerType) (n : t.Number) : t.read? (Whole.digits n.val) = some n := by
  rw [read?, Whole.read?_digits (t.isSigned_or_nonneg n), Option.bind_some, number?_val]

end IntegerType

/-! ## Hex digits -/

namespace Hex

theorem value?_digit {d : Nat} (h : d < 16) : value? (digit d) = some d := by
  have all : ∀ d < 16, value? (digit d) = some d := by decide
  exact all d h

theorem isBlank_digit {d : Nat} (h : d < 16) : Text.isBlank (digit d) = false := by
  have all : ∀ d < 16, Text.isBlank (digit d) = false := by decide
  exact all d h

theorem utf8_digit {d : Nat} (h : d < 16) :
    String.utf8EncodeChar (digit d) = [UInt8.ofNat (digit d).toNat] := by
  have all : ∀ d < 16, String.utf8EncodeChar (digit d) = [UInt8.ofNat (digit d).toNat] := by decide
  exact all d h

theorem ofNat_utf8_digit {d : Nat} (h : d < 16) :
    Char.ofNat (UInt8.ofNat (digit d).toNat).toNat = digit d := by
  have all : ∀ d < 16, Char.ofNat (UInt8.ofNat (digit d).toNat).toNat = digit d := by decide
  exact all d h

/-! ### Bytes -/

theorem isBlank_of_mem_encode {bytes : List UInt8} {c : Char} (h : c ∈ encode bytes) :
    Text.isBlank c = false := by
  obtain ⟨b, _, hc⟩ := List.mem_flatMap.mp h
  have hb := b.toNat_lt
  simp only [encodeByte, List.mem_cons, List.not_mem_nil, or_false] at hc
  rcases hc with rfl | rfl
  · exact isBlank_digit (by omega)
  · exact isBlank_digit (by omega)

/-- The UTF-8 bytes of a run of hex pairs. -/
def encodedBytes (bytes : List UInt8) : List UInt8 :=
  bytes.flatMap fun b =>
    [UInt8.ofNat (digit (b.toNat / 16)).toNat, UInt8.ofNat (digit (b.toNat % 16)).toNat]

theorem utf8_encode (bytes : List UInt8) :
    (encode bytes).flatMap String.utf8EncodeChar = encodedBytes bytes := by
  induction bytes with
  | nil => rfl
  | cons b rest ih =>
    have hb := b.toNat_lt
    simp only [encode, encodedBytes, List.flatMap_cons, List.flatMap_append] at ih ⊢
    rw [ih]
    simp only [encodeByte, List.flatMap_cons, List.flatMap_nil,
      utf8_digit (by omega : b.toNat / 16 < 16), utf8_digit (by omega : b.toNat % 16 < 16)]
    rfl

theorem length_encodedBytes (bytes : List UInt8) :
    (encodedBytes bytes).length = 2 * bytes.length := by
  induction bytes with
  | nil => rfl
  | cons b rest ih =>
    simp only [encodedBytes, List.flatMap_cons, List.length_append, List.length_cons,
      List.length_nil] at ih ⊢
    omega

theorem decodePairs_encodedBytes (bytes : List UInt8) (position : Nat) :
    decodePairs position (encodedBytes bytes) = .ok bytes := by
  induction bytes generalizing position with
  | nil => rfl
  | cons b rest ih =>
    have hb := b.toNat_lt
    have hhi : b.toNat / 16 < 16 := by omega
    have hlo : b.toNat % 16 < 16 := by omega
    have he : UInt8.ofNat (16 * (b.toNat / 16) + b.toNat % 16) = b := by
      rw [Nat.div_add_mod]
      exact UInt8.ofNat_toNat
    rw [encodedBytes, List.flatMap_cons, ← encodedBytes]
    simp only [List.cons_append, List.nil_append, decodePairs, ofNat_utf8_digit hhi,
      ofNat_utf8_digit hlo, value?_digit hhi, value?_digit hlo, ih, he]
    rfl

theorem decode_encode (bytes : List UInt8) : decode (encode bytes) = .ok bytes := by
  rw [decode, utf8_encode, length_encodedBytes, if_neg (by omega), decodePairs_encodedBytes]

/-! ### Numbers -/

theorem mem_fixed {width n : Nat} {c : Char} (h : c ∈ fixed width n) : ∃ d < 16, c = digit d := by
  induction width generalizing n with
  | zero => simp [fixed] at h
  | succ width ih =>
    rw [fixed, List.mem_append, List.mem_singleton] at h
    rcases h with h | h
    · exact ih h
    · exact ⟨n % 16, Nat.mod_lt n (by omega), h⟩

theorem fixed_foldl (width n : Nat) :
    (fixed width n).foldl (fun acc c => acc.bind fun n => (value? c).map (16 * n + ·)) (some 0) =
      some (n % 16 ^ width) := by
  induction width generalizing n with
  | zero => simp [fixed, Nat.mod_one]
  | succ width ih =>
    rw [fixed, List.foldl_append, ih]
    simp only [List.foldl_cons, List.foldl_nil, Option.bind_some,
      value?_digit (Nat.mod_lt n (by omega : 0 < 16)), Option.map_some]
    congr 1
    rw [Nat.pow_succ', Nat.mod_mul, Nat.add_comm]

theorem ofDigits?_fixed {width n : Nat} (hw : width ≠ 0) (hn : n < 16 ^ width) :
    ofDigits? (fixed width n) = some n := by
  have hne : (fixed width n).isEmpty = false := by
    cases width with
    | zero => exact absurd rfl hw
    | succ width => simp [fixed]
  rw [ofDigits?, hne, fixed_foldl, Nat.mod_eq_of_lt hn]
  rfl

theorem number?_fixed {width n : Nat} (hw : width ≠ 0) (hn : n < 16 ^ width) :
    number? (fixed width n) = some n := by
  have hv := ofDigits?_fixed hw hn
  unfold number?
  split
  · rename_i r h
    obtain ⟨d, hd, hc⟩ := mem_fixed (h ▸ List.mem_cons_self : '+' ∈ fixed width n)
    have all : ∀ d < 16, '+' ≠ digit d := by decide
    exact absurd hc (all d hd)
  · exact hv

end Hex

/-! ## Values -/

namespace Value

theorem truthOfText_word (b : Bool) : truthOfText (if b then "TRUE" else "FALSE") = .ok b := by
  have ht : Text.sameLetters (Text.trim "TRUE") "TRUE" = true := by decide +kernel
  have hf : Text.sameLetters (Text.trim "FALSE") "FALSE" = true := by decide +kernel
  have hft : Text.sameLetters (Text.trim "FALSE") "TRUE" = false := by decide +kernel
  cases b with
  | true => simp [truthOfText, ht]
  | false => simp [truthOfText, hf, hft]

theorem read_wireText (v : Value) (h : v.type.isFloat = false) : read v.type v.wireText = .ok v := by
  cases v with
  | char c => simp [read, type, wireText, text]
  | bool b => simp only [read, type, wireText, truthOfText_word]; rfl
  | integer t n =>
    have hb : ∀ c ∈ Whole.digits n.val, Text.isBlank c = false :=
      fun c hc => Whole.isBlank_of_mem_digits hc
    simp only [read, type, wireText, text, Whole.text, String.toList_ofList,
      Text.trimChars_eq_self hb, t.read?_digits n]
  | float t bits => simp [type, ValueType.isFloat] at h
  | string s => rfl
  | binary bytes =>
    have hb : ∀ c ∈ Hex.encode bytes, Text.isBlank c = false :=
      fun c hc => Hex.isBlank_of_mem_encode hc
    simp only [read, type, wireText, text, String.toList_ofList, Text.trimChars_eq_self hb,
      Hex.decode_encode]

/-- What is read as a type is a value of it. -/
theorem type_of_read {type : ValueType} {text : String} {v : Value} (h : read type text = .ok v) :
    v.type = type := by
  unfold read at h
  cases type with
  | char | integer t | float t | binary =>
    simp only at h
    split at h
    · cases h
      rfl
    · cases h
  | bool =>
    simp only at h
    cases htruth : truthOfText text with
    | error e =>
      rw [htruth] at h
      cases h
    | ok b =>
      rw [htruth] at h
      cases h
      rfl
  | string =>
    cases h
    rfl

theorem ofBits_bits (t : FloatType) (bits : t.Bits) :
    ofBits (.float t) (String.ofList (Hex.fixed (t.width / 4) bits.toNat)) = .ok (.float t bits) := by
  have hw : t.width / 4 ≠ 0 ∧ 16 ^ (t.width / 4) = 2 ^ t.width := by cases t <;> decide
  have hlt := bits.isLt
  have hb : ∀ c ∈ Hex.fixed (t.width / 4) bits.toNat, Text.isBlank c = false := by
    intro c hc
    obtain ⟨d, hd, rfl⟩ := Hex.mem_fixed hc
    exact Hex.isBlank_digit hd
  simp only [ofBits, String.toList_ofList, Text.trimChars_eq_self hb,
    Hex.number?_fixed hw.1 (hw.2 ▸ hlt), if_pos hlt, BitVec.ofNat_toNat, BitVec.setWidth_eq]

end Value

namespace Wire

/-- What a document states of a value is read as that value, bit for bit. -/
theorem readValue_wire (v : Value) : readValue v.type v.bits? v.wireText = .ok v := by
  cases v with
  | float t bits => exact Value.ofBits_bits t bits
  | char c => exact Value.read_wireText (.char c) rfl
  | bool b => exact Value.read_wireText (.bool b) rfl
  | integer t n => exact Value.read_wireText (.integer t n) rfl
  | string s => exact Value.read_wireText (.string s) rfl
  | binary bytes => exact Value.read_wireText (.binary bytes) rfl

end Wire

end BusCompliance
