/-!
# Letter case

Case folding is ASCII only everywhere: a letter outside A to Z and a to z has one form.
-/

namespace BusCompliance.Text

/-- The text with a to z written as A to Z. -/
def upper (s : String) : String := String.ofList (s.toList.map Char.toUpper)

/-- The two texts differ at most in the case of their ASCII letters. -/
def sameLetters (a b : String) : Bool := a.toList.map Char.toUpper == b.toList.map Char.toUpper

theorem sameLetters_iff (a b : String) : sameLetters a b = true ↔ upper a = upper b := by
  simp [sameLetters, upper, String.ofList_inj]

theorem sameLetters_refl (a : String) : sameLetters a a = true := by simp [sameLetters]

end BusCompliance.Text
