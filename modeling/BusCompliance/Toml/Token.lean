import BusCompliance.Toml.Moment
import BusCompliance.Toml.Text

/-!
# TOML tokens

A text as words, quoted texts, marks and line ends. Blanks and comments are left out. A text that
holds anything else has no tokens.
-/

namespace BusCompliance.Toml

inductive Token
  | lineEnd
  /-- A value without quotes, or bare keys and the dots between them. -/
  | word (cs : List Char)
  | text (cs : List Char) (multiline : Bool)
  | equals
  | comma
  /-- The bracket is `tight` if the same bracket follows at once. -/
  | openBracket (tight : Bool)
  | closeBracket (tight : Bool)
  | openBrace
  | closeBrace
deriving DecidableEq, Repr

/-- The mark at the start of a text. -/
def mark? (c : Char) (r : List Char) : Option Token :=
  if c = '=' then some .equals
  else if c = ',' then some .comma
  else if c = '[' then some (.openBracket (r.head? = some '['))
  else if c = ']' then some (.closeBracket (r.head? = some ']'))
  else if c = '\x7b' then some .openBrace
  else if c = '\x7d' then some .closeBrace
  else none

/-- A character of a bare key, or one that a number, a date or a time may hold. -/
def isWordChar (c : Char) : Bool :=
  c.isAlphanum || c = '_' || c = '-' || c = '+' || c = '.' || c = ':'

/-- The word at the start of a text, and what follows it. A space may stand between a date and a
time. -/
def spanWord (cs : List Char) : List Char × List Char :=
  let word := cs.takeWhile isWordChar
  match cs.dropWhile isWordChar with
  | ' ' :: r =>
    if Moment.isDate word ∧ (r.head?.map isDigit).getD false then
      (word ++ ' ' :: r.takeWhile isWordChar, r.dropWhile isWordChar)
    else (word, ' ' :: r)
  | r => (word, r)

theorem spanWord_length {c : Char} {r : List Char} (h : isWordChar c = true) :
    (spanWord (c :: r)).2.length ≤ r.length := by
  have hd : ((c :: r).dropWhile isWordChar).length ≤ r.length := by
    rw [List.dropWhile_cons_of_pos h]
    exact (List.dropWhile_suffix isWordChar).length_le
  simp only [spanWord]
  split
  · rename_i s hs
    rw [hs] at hd
    split
    · have := (List.dropWhile_suffix isWordChar (l := s)).length_le
      simp only [List.length_cons] at hd ⊢
      omega
    · exact hd
  · exact hd

/-- The characters of a comment up to its line end, with the line end left to be read. A carriage
return may stand right before the line feed only. -/
def dropComment? : List Char → Option (List Char)
  | [] => some []
  | '\n' :: r => some ('\n' :: r)
  | '\r' :: '\n' :: r => some ('\n' :: r)
  | c :: r => if isPlain c then dropComment? r else none

theorem dropComment?_length {cs r : List Char} (h : dropComment? cs = some r) :
    r.length ≤ cs.length := by
  fun_induction dropComment? cs with
  | case1 | case2 => cases h; simp
  | case3 => cases h; simp only [List.length_cons]; omega
  | case4 _ _ _ _ _ ih => exact Nat.le_succ_of_le (ih h)
  | case5 => simp at h

def tokens : List Char → Option (List Token)
  | [] => some []
  | c :: r =>
    if isSpace c then tokens r
    else if c = '#' then
      match _h : dropComment? r with
      | none => none
      | some rest => tokens rest
    else if c = '\"' ∨ c = '\x27' then
      match _h : openedText c r with
      | none => none
      | some ((cs, multiline), rest) => (tokens rest).map (.text cs multiline :: ·)
    else if _h : isWordChar c = true then
      (tokens (spanWord (c :: r)).2).map (.word (spanWord (c :: r)).1 :: ·)
    else
      match _h' : dropLineEnd? (c :: r) with
      | some rest => (tokens rest).map (.lineEnd :: ·)
      | none =>
        match mark? c r with
        | some t => (tokens r).map (t :: ·)
        | none => none
termination_by cs => cs.length
decreasing_by
  · simp
  · exact Nat.lt_succ_of_le (dropComment?_length _h)
  · exact Nat.lt_succ_of_lt (openedText_length _h)
  · exact Nat.lt_succ_of_le (spanWord_length _h)
  · exact dropLineEnd?_length _h'
  · simp

end BusCompliance.Toml
