import BusCompliance.Number.Natural
import BusCompliance.Text.Hex

/-!
# Quoted text in TOML

Text between double quotes has escapes, text between single quotes has none. Between three quotes
of a kind it may run over lines, and a line end is always one line feed.
-/

namespace BusCompliance.Toml

/-- The marks a text stands between. -/
structure Quoting where
  mark : Char
  multiline : Bool

/-- Double quotes let a backslash begin an escape. -/
def Quoting.escapes (q : Quoting) : Bool := q.mark = '\"'

/-- A control character other than a tab never stands for itself. -/
def isPlain (c : Char) : Bool := c = '\t' || (0x20 ≤ c.toNat && c.toNat ≠ 0x7F)

def isSpace (c : Char) : Bool := c = ' ' || c = '\t'

/-! ## Line ends -/

/-- The text behind a line end. -/
def dropLineEnd? : List Char → Option (List Char)
  | '\n' :: r => some r
  | '\r' :: '\n' :: r => some r
  | _ => none

theorem dropLineEnd?_length {cs r : List Char} (h : dropLineEnd? cs = some r) :
    r.length < cs.length := by
  unfold dropLineEnd? at h
  split at h
  · cases h; simp
  · cases h; simp only [List.length_cons]; omega
  · simp at h

/-- The text behind any blanks and line ends. -/
def dropBlankLines : List Char → List Char
  | '\r' :: '\n' :: r => dropBlankLines r
  | c :: r => if isSpace c || c = '\n' then dropBlankLines r else c :: r
  | [] => []

theorem dropBlankLines_length (cs : List Char) : (dropBlankLines cs).length ≤ cs.length := by
  fun_induction dropBlankLines cs <;> simp_all <;> omega

/-! ## Escapes -/

/-- The character that a number of hex digits spells, and what follows. -/
def codePoint? (width : Nat) (cs : List Char) : Option (List Char × List Char) :=
  let digits := cs.take width
  match Hex.ofDigits? digits with
  | some n =>
    if digits.length = width ∧ n.isValidChar then some ([Char.ofNat n], cs.drop width) else none
  | none => none

def escaped? (c : Char) : Option Char :=
  match c with
  | 'b' => some '\x08'
  | 't' => some '\t'
  | 'n' => some '\n'
  | 'f' => some '\x0c'
  | 'r' => some '\r'
  | '\"' => some '\"'
  | '\\' => some '\\'
  | _ => none

/-- What a backslash stands for, and what follows. At the end of a line it takes away the blanks
and line ends up to the next character. -/
def escape? (multiline : Bool) : List Char → Option (List Char × List Char)
  | [] => none
  | c :: r =>
    if c = 'u' then codePoint? 4 r
    else if c = 'U' then codePoint? 8 r
    else
      match escaped? c with
      | some x => some ([x], r)
      | none =>
        if multiline then
          (dropLineEnd? ((c :: r).dropWhile isSpace)).map fun rest => ([], dropBlankLines rest)
        else none

theorem codePoint?_length {width : Nat} {cs s r : List Char}
    (h : codePoint? width cs = some (s, r)) : r.length ≤ cs.length := by
  simp only [codePoint?] at h
  split at h
  · split at h
    · simp only [Option.some.injEq, Prod.mk.injEq] at h
      simp [← h.2]
    · simp at h
  · simp at h

theorem escape?_length {multiline : Bool} {cs s r : List Char}
    (h : escape? multiline cs = some (s, r)) : r.length ≤ cs.length := by
  cases cs with
  | nil => simp [escape?] at h
  | cons c cs =>
    simp only [escape?] at h
    split at h
    · exact Nat.le_succ_of_le (codePoint?_length h)
    split at h
    · exact Nat.le_succ_of_le (codePoint?_length h)
    split at h
    · simp only [Option.some.injEq, Prod.mk.injEq] at h
      simp [← h.2]
    · split at h
      · simp only [Option.map_eq_some_iff, Prod.mk.injEq] at h
        obtain ⟨rest, h1, _, rfl⟩ := h
        have h2 := dropLineEnd?_length h1
        have h3 := dropBlankLines_length rest
        have h4 := (List.dropWhile_suffix isSpace (l := c :: cs)).length_le
        omega
      · simp at h

/-! ## Reading -/

/-- How many of the marks behind the closing three still belong to the text: two at most. -/
def extraMarks (mark : Char) : List Char → Nat
  | a :: b :: _ => if a = mark then if b = mark then 2 else 1 else 0
  | [a] => if a = mark then 1 else 0
  | [] => 0

/-- The text up to its closing marks, and what follows them. -/
def quotedText (q : Quoting) : List Char → Option (List Char × List Char)
  | [] => none
  | c :: r =>
    if c = q.mark ∧ q.multiline = false then some ([], r)
    else if c = q.mark ∧ [q.mark, q.mark].isPrefixOf r then
      let extra := extraMarks q.mark (r.drop 2)
      some (List.replicate extra q.mark, r.drop (2 + extra))
    else if c = '\\' ∧ q.escapes then
      match _h : escape? q.multiline r with
      | none => none
      | some (s, rest) => (quotedText q rest).map fun (a, b) => (s ++ a, b)
    else
      match _h : dropLineEnd? (c :: r) with
      | some rest =>
        if q.multiline then (quotedText q rest).map fun (a, b) => ('\n' :: a, b) else none
      | none => if isPlain c then (quotedText q r).map fun (a, b) => (c :: a, b) else none
termination_by cs => cs.length
decreasing_by
  · exact Nat.lt_succ_of_le (escape?_length _h)
  · exact dropLineEnd?_length _h
  · simp

theorem quotedText_length {q : Quoting} {cs s r : List Char}
    (h : quotedText q cs = some (s, r)) : r.length < cs.length := by
  fun_induction quotedText q cs generalizing s r
  case case1 => simp at h
  case case2 =>
    simp only [Option.some.injEq, Prod.mk.injEq] at h
    simp [← h.2]
  case case3 =>
    simp only [Option.some.injEq, Prod.mk.injEq] at h
    rw [← h.2, List.length_cons, List.length_drop]
    omega
  case case4 => simp at h
  case case5 _ _ _ _ _ _ _ he ih =>
    simp only [Option.map_eq_some_iff, Prod.mk.injEq] at h
    obtain ⟨⟨a, b⟩, h', _, rfl⟩ := h
    exact Nat.lt_succ_of_lt (Nat.lt_of_lt_of_le (ih h') (escape?_length he))
  case case6 _ _ _ _ _ _ hl _ ih =>
    simp only [Option.map_eq_some_iff, Prod.mk.injEq] at h
    obtain ⟨⟨a, b⟩, h', _, rfl⟩ := h
    exact Nat.lt_trans (ih h') (dropLineEnd?_length hl)
  case case7 => simp at h
  case case8 ih =>
    simp only [Option.map_eq_some_iff, Prod.mk.injEq] at h
    obtain ⟨⟨a, b⟩, h', _, rfl⟩ := h
    exact Nat.lt_succ_of_lt (ih h')
  case case9 => simp at h

/-- The text that begins behind an opening mark, and what follows it. A line end right behind three
marks is no part of the text. -/
def openedText (mark : Char) (cs : List Char) : Option ((List Char × Bool) × List Char) :=
  if [mark, mark].isPrefixOf cs then
    let body := cs.drop 2
    (quotedText ⟨mark, true⟩ ((dropLineEnd? body).getD body)).map fun (a, b) => ((a, true), b)
  else (quotedText ⟨mark, false⟩ cs).map fun (a, b) => ((a, false), b)

theorem openedText_length {mark : Char} {cs r : List Char} {s : List Char × Bool}
    (h : openedText mark cs = some (s, r)) : r.length < cs.length := by
  simp only [openedText] at h
  split at h <;> simp only [Option.map_eq_some_iff, Prod.mk.injEq] at h
  · obtain ⟨⟨a, b⟩, h', _, rfl⟩ := h
    have h1 := quotedText_length h'
    have h2 : (cs.drop 2).length ≤ cs.length := by simp
    cases hd : dropLineEnd? (cs.drop 2) with
    | none => rw [hd] at h1; exact Nat.lt_of_lt_of_le h1 h2
    | some x =>
      rw [hd] at h1
      have h3 := dropLineEnd?_length hd
      simp only [Option.getD_some] at h1
      exact Nat.lt_trans h1 (Nat.lt_of_lt_of_le h3 h2)
  · obtain ⟨⟨a, b⟩, h', _, rfl⟩ := h
    exact quotedText_length h'

end BusCompliance.Toml
