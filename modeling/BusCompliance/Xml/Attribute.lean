import BusCompliance.Xml.Entity

/-!
# XML attributes

The attributes in the text of a tag. Each is a name, an equals sign and a value in quotes; blanks
may stand around the sign and none is needed between two attributes.
-/

namespace BusCompliance.Xml

def isSpace (c : Char) : Bool := c = ' ' || c = '\t' || c = '\r' || c = '\n'

structure Attribute where
  name : String
  value : String
deriving DecidableEq, Repr

def isNameEnd (c : Char) : Bool := c = '=' || isSpace c

/-- The name at the start of a text, and what follows the equals sign after it. The first character
always belongs to the name. -/
def spanName : List Char → Option (List Char × List Char)
  | [] => none
  | c :: r =>
    match (r.dropWhile fun x => !isNameEnd x).dropWhile isSpace with
    | '=' :: rest => some (c :: r.takeWhile fun x => !isNameEnd x, rest)
    | _ => none

/-- The value in quotes at the start of a text, and what follows it. -/
def spanValue (cs : List Char) : Option (List Char × List Char) :=
  match cs.dropWhile isSpace with
  | q :: r =>
    if q = '\"' ∨ q = '\x27' then
      match r.dropWhile (· != q) with
      | _ :: rest => some (r.takeWhile (· != q), rest)
      | [] => none
    else none
  | [] => none

/-- The attribute at the start of a text, its value still escaped, and what follows it. -/
def spanAttribute (cs : List Char) : Option ((List Char × List Char) × List Char) :=
  match spanName cs with
  | none => none
  | some (name, rest) => (spanValue rest).map fun (value, rest) => ((name, value), rest)

theorem length_dropWhile_le (p : Char → Bool) (cs : List Char) :
    (cs.dropWhile p).length ≤ cs.length := (List.dropWhile_suffix p).length_le

theorem spanName_length {cs name rest : List Char} (h : spanName cs = some (name, rest)) :
    rest.length < cs.length := by
  cases cs with
  | nil => simp [spanName] at h
  | cons c r =>
    simp only [spanName] at h
    split at h
    · rename_i rest' he
      simp only [Option.some.injEq, Prod.mk.injEq] at h
      obtain ⟨_, rfl⟩ := h
      have h1 := length_dropWhile_le isSpace (r.dropWhile fun x => !isNameEnd x)
      have h2 := length_dropWhile_le (fun x => !isNameEnd x) r
      rw [he] at h1
      simp only [List.length_cons] at *
      omega
    · simp at h

theorem spanValue_length {cs value rest : List Char} (h : spanValue cs = some (value, rest)) :
    rest.length < cs.length := by
  have h0 := length_dropWhile_le isSpace cs
  simp only [spanValue] at h
  split at h
  · rename_i q r hq
    rw [hq] at h0
    split at h
    · split at h
      · rename_i rest' he
        simp only [Option.some.injEq, Prod.mk.injEq] at h
        obtain ⟨_, rfl⟩ := h
        have h1 := length_dropWhile_le (· != q) r
        rw [he] at h1
        simp only [List.length_cons] at *
        omega
      · simp at h
    · simp at h
  · simp at h

theorem spanAttribute_length {cs rest : List Char} {a : List Char × List Char}
    (h : spanAttribute cs = some (a, rest)) : rest.length < cs.length := by
  simp only [spanAttribute] at h
  split at h
  · simp at h
  · rename_i name rest' hn
    simp only [Option.map_eq_some_iff, Prod.mk.injEq] at h
    obtain ⟨⟨value, rest''⟩, hv, _, rfl⟩ := h
    exact Nat.lt_trans (spanValue_length hv) (spanName_length hn)

/-- All attributes with their values still escaped. -/
def rawAttributes (cs : List Char) : Option (List (List Char × List Char)) :=
  if cs.all isSpace then some []
  else
    match _h : spanAttribute (cs.dropWhile isSpace) with
    | none => none
    | some (a, rest) => (rawAttributes rest).map (a :: ·)
termination_by cs.length
decreasing_by
  exact Nat.lt_of_lt_of_le (spanAttribute_length _h) (length_dropWhile_le isSpace cs)

/-- The attribute with its entities replaced. -/
def decodeAttribute (a : List Char × List Char) : Option Attribute :=
  (unescape a.2).map fun value => ⟨String.ofList a.1, String.ofList value⟩

/-- The attributes of a tag. A name may stand once only, and every value has to be well formed. -/
def attributes (cs : List Char) : Option (List Attribute) := do
  let raw ← rawAttributes cs
  if (raw.map (·.1)).eraseDups.length < raw.length then none else raw.mapM decodeAttribute

end BusCompliance.Xml
