import BusCompliance.Json.Value

/-!
# JSON tokens

A text as marks, strings and words, with the blanks between them left out. A text that holds
anything else has no tokens. Some strings and numbers are well formed and yet stand for nothing.
-/

namespace BusCompliance.Json

inductive Token
  | openArray
  | closeArray
  | openObject
  | closeObject
  | comma
  | colon
  /-- A string, or `none` for one that is no text since half a surrogate pair stands alone. -/
  | text (s : Option String)
  /-- A number or one of the three words, or `none` for a number that is too large. -/
  | word (v : Option Value)

/-! ## Strings -/

/-- The number that four hex digits spell. -/
def fourDigits? (a b c d : Char) : Option Nat := Hex.ofDigits? [a, b, c, d]

/-- The character of a one-letter escape. -/
def escaped? (c : Char) : Option Char :=
  match c with
  | '\"' => some '\"'
  | '\\' => some '\\'
  | '/' => some '/'
  | 'b' => some '\x08'
  | 'f' => some '\x0c'
  | 'n' => some '\n'
  | 'r' => some '\r'
  | 't' => some '\t'
  | _ => none

/-- Put a unit before what was read. -/
def before (n : Nat) (p : List Nat × List Char) : List Nat × List Char := (n :: p.1, p.2)

/-- The rest of a string up to its closing quote, as the code points of its characters and the
numbers of its escapes, and what follows. -/
def stringUnits : List Char → Option (List Nat × List Char)
  | [] => none
  | '\"' :: r => some ([], r)
  | '\\' :: 'u' :: a :: b :: c :: d :: r =>
    (fourDigits? a b c d).bind fun n => (stringUnits r).map (before n)
  | '\\' :: c :: r => (escaped? c).bind fun x => (stringUnits r).map (before x.toNat)
  | c :: r => if c.toNat < 0x20 then none else (stringUnits r).map (before c.toNat)

theorem stringUnits_length {cs : List Char} {ns : List Nat} {r : List Char}
    (h : stringUnits cs = some (ns, r)) : r.length < cs.length := by
  fun_induction stringUnits cs generalizing ns r <;>
    simp only [Option.bind_eq_some_iff, Option.map_eq_some_iff, reduceCtorEq, Option.some.injEq,
      Prod.mk.injEq] at h
  case case2 => obtain ⟨_, rfl⟩ := h; simp
  case case3 ih | case4 ih =>
    obtain ⟨n, _, ⟨ns', r'⟩, h', he⟩ := h
    have := ih h'
    simp only [before, Prod.mk.injEq] at he
    obtain ⟨_, rfl⟩ := he
    simp only [List.length_cons] at *
    omega
  case case6 ih =>
    obtain ⟨⟨ns', r'⟩, h', he⟩ := h
    have := ih h'
    simp only [before, Prod.mk.injEq] at he
    obtain ⟨_, rfl⟩ := he
    simp only [List.length_cons] at *
    omega

def isFirstHalf (n : Nat) : Bool := 0xD800 ≤ n && n < 0xDC00

def isSecondHalf (n : Nat) : Bool := 0xDC00 ≤ n && n < 0xE000

/-- The code point that the two halves of a surrogate pair make up. -/
def joinHalves (n m : Nat) : Nat := 0x10000 + (n - 0xD800) * 0x400 + (m - 0xDC00)

/-- The characters of a string, in which no half of a surrogate pair stands alone. -/
def characters? : List Nat → Option (List Char)
  | [] => some []
  | n :: ns =>
    if isFirstHalf n then
      match ns with
      | m :: rest =>
        if isSecondHalf m then (characters? rest).map (Char.ofNat (joinHalves n m) :: ·) else none
      | [] => none
    else if isSecondHalf n then none
    else (characters? ns).map (Char.ofNat n :: ·)

/-! ## Tokens -/

def isSpace (c : Char) : Bool := c = ' ' || c = '\n' || c = '\r' || c = '\t'

def mark? (c : Char) : Option Token :=
  if c = '[' then some .openArray
  else if c = ']' then some .closeArray
  else if c = '\x7b' then some .openObject
  else if c = '\x7d' then some .closeObject
  else if c = ',' then some .comma
  else if c = ':' then some .colon
  else none

/-- A character that a number or one of the three words can hold. -/
def isWordChar (c : Char) : Bool :=
  c.isAlphanum || c = '-' || c = '+' || c = '.'

def word? (cs : List Char) : Option Token :=
  if cs = "null".toList then some (.word (some .null))
  else if cs = "true".toList then some (.word (some (.bool true)))
  else if cs = "false".toList then some (.word (some (.bool false)))
  else (NumberLiteral.read? cs).map fun l => .word (l.value?.map .number)

def textOf (units : List Nat) : Token := .text ((characters? units).map String.ofList)

def tokens : List Char → Option (List Token)
  | [] => some []
  | c :: r =>
    if isSpace c then tokens r
    else if c = '\"' then
      match _h : stringUnits r with
      | none => none
      | some (units, rest) => (tokens rest).map (textOf units :: ·)
    else
      match mark? c with
      | some t => (tokens r).map (t :: ·)
      | none =>
        if isWordChar c then
          match word? (c :: r.takeWhile isWordChar) with
          | none => none
          | some t => (tokens (r.dropWhile isWordChar)).map (t :: ·)
        else none
termination_by cs => cs.length
decreasing_by
  · simp
  · have := stringUnits_length _h; simp only [List.length_cons]; omega
  · simp
  · have := (List.dropWhile_suffix isWordChar (l := r)).length_le
    simp only [List.length_cons]; omega

end BusCompliance.Json
