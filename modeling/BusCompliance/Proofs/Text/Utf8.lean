import Mathlib.Data.String.Basic

/-!
# Order of bytes

Texts are ordered by code point. Their UTF-8 bytes are in the same order.
-/

namespace BusCompliance.Text

def utf8 (s : String) : List UInt8 := s.toUTF8.data.toList

theorem utf8_eq (s : String) : utf8 s = s.toList.flatMap String.utf8EncodeChar := by
  unfold utf8 String.toUTF8
  rw [← String.utf8Encode_toList, List.utf8Encode, List.toList_data_toByteArray]

/-! ## One character -/

section

variable {a b : Nat}

theorem ofNat_lt_ofNat_iff (ha : a < 256) (hb : b < 256) :
    UInt8.ofNat a < UInt8.ofNat b ↔ a < b := by
  rw [UInt8.lt_iff_toNat_lt, UInt8.toNat_ofNat', UInt8.toNat_ofNat', Nat.mod_eq_of_lt ha,
    Nat.mod_eq_of_lt hb]

theorem ofNat_eq_ofNat_iff (ha : a < 256) (hb : b < 256) :
    UInt8.ofNat a = UInt8.ofNat b ↔ a = b := by
  rw [← UInt8.toNat_inj, UInt8.toNat_ofNat', UInt8.toNat_ofNat', Nat.mod_eq_of_lt ha,
    Nat.mod_eq_of_lt hb]

/-- The first digits to base 64 that differ order two numbers. -/
theorem digits_lt (h : a < b) :
    a / 262144 < b / 262144 ∨ a / 262144 = b / 262144 ∧
      (a / 4096 % 64 < b / 4096 % 64 ∨ a / 4096 % 64 = b / 4096 % 64 ∧
        (a / 64 % 64 < b / 64 % 64 ∨ a / 64 % 64 = b / 64 % 64 ∧ a % 64 < b % 64)) := by
  have hsix (n : Nat) : n / 4096 = n / 64 / 64 := by omega
  have htop (n : Nat) : n / 262144 = n / 4096 / 64 := by omega
  have hdigit {x y : Nat} (hle : x ≤ y) (heq : x / 64 = y / 64) : x % 64 < y % 64 ∨ x = y := by omega
  rcases Nat.lt_or_eq_of_le (Nat.div_le_div_right (c := 262144) h.le) with htop | heq
  · exact .inl htop
  refine .inr ⟨heq, ?_⟩
  rcases hdigit (Nat.div_le_div_right (c := 4096) h.le) (by rwa [← htop, ← htop]) with hlt | heq
  · exact .inl hlt
  refine .inr ⟨by rw [heq], ?_⟩
  rcases hdigit (Nat.div_le_div_right (c := 64) h.le) (by rwa [← hsix, ← hsix]) with hlt | heq
  · exact .inl hlt
  refine .inr ⟨by rw [heq], ?_⟩
  omega

end

theorem toNat_lt (c : Char) : c.val.toNat < 0x110000 := by
  rcases c.valid with h | h
  · exact h.trans (by decide)
  · exact h.2

theorem utf8EncodeChar_append_lt {c d : Char} (h : c < d) (r s : List UInt8) :
    String.utf8EncodeChar c ++ r < String.utf8EncodeChar d ++ s := by
  have hc := toNat_lt c
  have hd := toNat_lt d
  have hlt : c.val.toNat < d.val.toNat := h
  have hdigits := digits_lt hlt
  have htop (n : Nat) (hn : n < 0x110000) : n / 262144 % 8 = n / 262144 := by omega
  have hctop := htop _ hc
  have hdtop := htop _ hd
  unfold String.utf8EncodeChar
  dsimp only
  generalize c.val.toNat = a at *
  generalize d.val.toNat = b at *
  -- by the number of bytes of either
  repeat' split
  all_goals
    simp (disch := omega) only [List.cons_append, List.nil_append, List.cons_lt_cons_iff,
      ofNat_lt_ofNat_iff, ofNat_eq_ofNat_iff]
    omega

/-! ## Texts -/

theorem flatMap_utf8EncodeChar_lt {cs ds : List Char} (h : cs < ds) :
    cs.flatMap String.utf8EncodeChar < ds.flatMap String.utf8EncodeChar := by
  induction cs generalizing ds with
  | nil =>
    cases ds with
    | nil => exact absurd h (List.lt_irrefl _)
    | cons d ds =>
      obtain ⟨b, bs, hb⟩ := List.exists_cons_of_ne_nil (String.utf8EncodeChar_ne_nil (c := d))
      rw [List.flatMap_cons, hb]
      exact List.nil_lt_cons _ _
  | cons c cs ih =>
    cases ds with
    | nil => exact absurd h (List.not_lt_nil _)
    | cons d ds =>
      rw [List.flatMap_cons, List.flatMap_cons]
      rcases List.cons_lt_cons_iff.mp h with hlt | ⟨rfl, hlt⟩
      · exact utf8EncodeChar_append_lt hlt _ _
      · exact List.append_left_lt (ih hlt)

/-- UTF-8 bytes are ordered as the texts are. -/
theorem utf8_lt {a b : String} (h : a < b) : utf8 a < utf8 b := by
  rw [utf8_eq, utf8_eq]
  exact flatMap_utf8EncodeChar_lt (String.lt_iff_toList_lt.mp h)

end BusCompliance.Text
