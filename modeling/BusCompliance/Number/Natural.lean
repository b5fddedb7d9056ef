/-!
# Decimal whole numbers

The digits of a natural number and the number that digits spell. `ofDigits?_digits` says that
the second undoes the first.
-/

namespace BusCompliance

/-- A power is that of the core library, also beside algebra, where it would be one of a monoid. -/
instance (priority := 2000) corePow {α : Type} [NatPow α] : Pow α Nat := instPowNat

/-! ## Digits -/

/-- The character of a digit below ten. -/
def digitChar (d : Nat) : Char := Char.ofNat (48 + d)

/-- The value of an ASCII digit. -/
def digitValue? (c : Char) : Option Nat :=
  if 48 ≤ c.toNat ∧ c.toNat ≤ 57 then some (c.toNat - 48) else none

def isDigit (c : Char) : Bool := (digitValue? c).isSome

theorem digitValue?_digitChar {d : Nat} (h : d < 10) : digitValue? (digitChar d) = some d := by
  rcases d with _ | _ | _ | _ | _ | _ | _ | _ | _ | _ | d <;> first | rfl | omega

/-! ## Natural numbers -/

namespace Natural

/-- The decimal digits, most significant first, with no leading zero. -/
def digits (n : Nat) : List Char :=
  if n < 10 then [digitChar n] else digits (n / 10) ++ [digitChar (n % 10)]
termination_by n

/-- One more digit at the low end of the number read so far. -/
def appendDigit (acc : Option Nat) (c : Char) : Option Nat :=
  acc.bind fun n => (digitValue? c).map (10 * n + ·)

/-- The value of a run of digits, the empty run being zero. -/
def value? (cs : List Char) : Option Nat := cs.foldl appendDigit (some 0)

/-- The number that a text of one or more digits spells. Leading zeros do not matter. -/
def ofDigits? (cs : List Char) : Option Nat := if cs.isEmpty then none else value? cs

def text (n : Nat) : String := String.ofList (digits n)

theorem digits_ne_nil (n : Nat) : digits n ≠ [] := by
  rw [digits]; split <;> simp

theorem value?_digits (n : Nat) : value? (digits n) = some n := by
  induction n using Nat.strongRecOn with
  | _ n ih =>
    rw [digits]
    split
    · rename_i h
      simp [value?, appendDigit, digitValue?_digitChar h]
    · rename_i h
      have hv := ih (n / 10) (by omega)
      simp only [value?] at hv
      simp only [value?, List.foldl_append, hv, List.foldl_cons, List.foldl_nil, appendDigit,
        Option.bind_some, digitValue?_digitChar (Nat.mod_lt n (by omega : 0 < 10)), Option.map_some]
      congr 1
      omega

theorem ofDigits?_digits (n : Nat) : ofDigits? (digits n) = some n := by
  simp [ofDigits?, digits_ne_nil, value?_digits]

end Natural

/-! ## Signed numbers -/

namespace Whole

/-- A minus sign for a number below zero, then the digits. -/
def digits (n : Int) : List Char :=
  if n < 0 then '-' :: Natural.digits n.natAbs else Natural.digits n.natAbs

def text (n : Int) : String := String.ofList (digits n)

/-- The number that a text spells: a plus sign is allowed, a minus sign only where `signed`. -/
def read? (signed : Bool) : List Char → Option Int
  | '+' :: r => (Natural.ofDigits? r).map Int.ofNat
  | '-' :: r => if signed then (Natural.ofDigits? r).map fun n => -(n : Int) else none
  | cs => (Natural.ofDigits? cs).map Int.ofNat

end Whole

end BusCompliance
