import BusCompliance.Text.Case
import BusCompliance.Text.Dotted
import BusCompliance.Xml.Attribute

/-!
# XML tokens

A text as tags and the text between them. Where the text stops being well formed the tokens end
with `malformed`, so that what comes first in the text is reported first.
-/

namespace BusCompliance.Xml

inductive Token
  /-- Text between tags, its entities still escaped. -/
  | text (raw : List Char)
  | cdata (content : List Char)
  | start (name attributes : List Char)
  /-- A tag that opens and closes an element at once. -/
  | empty (name attributes : List Char)
  | close (name : List Char)
  /-- A comment, a processing instruction or a document type. -/
  | skipped
  | malformed
deriving DecidableEq, Repr

/-! ## Tags -/

/-- The quote that is open behind a character. -/
def quoteAfter (quote : Option Char) (c : Char) : Option Char :=
  match quote with
  | none => if c = '\"' ∨ c = '\x27' then some c else none
  | some q => if c = q then none else some q

/-- The text of a tag: all up to the first closing angle outside quotes. -/
def spanTag (quote : Option Char) : List Char → Option (List Char × List Char)
  | [] => none
  | c :: r =>
    if c = '>' ∧ quote = none then some ([], r)
    else (spanTag (quoteAfter quote c) r).map fun (a, b) => (c :: a, b)

/-- The tag of a text: its name ends at the first blank, and a slash at the very end marks an
element without content. -/
def tagOf (text : List Char) : Token :=
  let name (body : List Char) := body.takeWhile fun c => !isSpace c
  let attributes (body : List Char) := body.dropWhile fun c => !isSpace c
  if text.getLast? = some '/' then .empty (name text.dropLast) (attributes text.dropLast)
  else .start (name text) (attributes text)

/-- The name of a closing tag, without the blanks behind it. -/
def closeName (text : List Char) : List Char := (text.reverse.dropWhile isSpace).reverse

/-! ## Other markup -/

/-- The text of a document type, in which angles nest. -/
def spanDoctype (depth : Nat) : List Char → Option (List Char × List Char)
  | [] => none
  | c :: r =>
    if c = '>' ∧ depth = 0 then some ([], r)
    else
      let inner := if c = '<' then depth + 1 else if c = '>' then depth - 1 else depth
      (spanDoctype inner r).map fun (a, b) => (c :: a, b)

/-- The text after a keyword in any case. -/
def dropKeyword? (keyword cs : List Char) : Option (List Char) :=
  if (cs.take keyword.length).map Char.toUpper = keyword then some (cs.drop keyword.length)
  else none

/-- What follows an angle and an exclamation mark. -/
def spanDeclaration : List Char → Option (Token × List Char)
  | '-' :: '-' :: r => (Text.splitMark "-->".toList r).map fun (_, rest) => (.skipped, rest)
  | '[' :: r => do
    let (body, rest) ← Text.splitMark "]]>".toList r
    let content ← dropKeyword? "CDATA[".toList body
    return (.cdata content, rest)
  | r => do
    let (body, rest) ← spanDoctype 0 r
    let content ← dropKeyword? "DOCTYPE".toList body
    if content.all isSpace then none else return (.skipped, rest)

/-- What follows an opening angle. A closing tag may also end with the text. -/
def spanMarkup : List Char → Option (Token × List Char)
  | '!' :: r => spanDeclaration r
  | '/' :: r => some (.close (closeName (r.takeWhile (· != '>'))), (r.dropWhile (· != '>')).drop 1)
  | '?' :: r =>
    let body := r.takeWhile (· != '>')
    if body.getLast? = some '?' ∧ 2 ≤ body.length then
      some (.skipped, (r.dropWhile (· != '>')).drop 1)
    else none
  | r => (spanTag none r).map fun (text, rest) => (tagOf text, rest)

/-! ## What is left is shorter -/

theorem spanTag_length {quote : Option Char} {cs a b : List Char}
    (h : spanTag quote cs = some (a, b)) : b.length < cs.length := by
  induction cs generalizing quote a b with
  | nil => simp [spanTag] at h
  | cons c r ih =>
    simp only [spanTag] at h
    split at h
    · simp only [Option.some.injEq, Prod.mk.injEq] at h
      simp [h.2]
    · simp only [Option.map_eq_some_iff, Prod.mk.injEq] at h
      obtain ⟨⟨a', b'⟩, h', _, rfl⟩ := h
      exact Nat.lt_succ_of_lt (ih h')

theorem spanDoctype_length {depth : Nat} {cs a b : List Char}
    (h : spanDoctype depth cs = some (a, b)) : b.length < cs.length := by
  induction cs generalizing depth a b with
  | nil => simp [spanDoctype] at h
  | cons c r ih =>
    simp only [spanDoctype] at h
    split at h
    · simp only [Option.some.injEq, Prod.mk.injEq] at h
      simp [h.2]
    · simp only [Option.map_eq_some_iff, Prod.mk.injEq] at h
      obtain ⟨⟨a', b'⟩, h', _, rfl⟩ := h
      exact Nat.lt_succ_of_lt (ih h')

theorem spanDeclaration_length {cs rest : List Char} {t : Token}
    (h : spanDeclaration cs = some (t, rest)) : rest.length < cs.length := by
  unfold spanDeclaration at h
  split at h
  · simp only [Option.map_eq_some_iff, Prod.mk.injEq] at h
    obtain ⟨⟨a, b⟩, h', _, rfl⟩ := h
    have := Text.splitMark_length h'
    simp only [List.length_cons]
    omega
  · simp only [Option.bind_eq_bind, Option.bind_eq_some_iff, pure, Option.some.injEq,
      Prod.mk.injEq] at h
    obtain ⟨⟨a, b⟩, h', _, _, _, rfl⟩ := h
    exact Nat.lt_succ_of_lt (Text.splitMark_length h')
  · simp only [Option.bind_eq_bind, Option.bind_eq_some_iff, pure] at h
    obtain ⟨⟨a, b⟩, h', _, _, h2⟩ := h
    split at h2
    · simp at h2
    · simp only [Option.some.injEq, Prod.mk.injEq] at h2
      obtain ⟨_, rfl⟩ := h2
      exact spanDoctype_length h'

theorem length_drop_dropWhile_lt (p : Char → Bool) (c : Char) (r : List Char) :
    ((r.dropWhile p).drop 1).length < (c :: r).length := by
  have := length_dropWhile_le p r
  simp only [List.length_drop, List.length_cons]
  omega

theorem spanMarkup_length {cs rest : List Char} {t : Token}
    (h : spanMarkup cs = some (t, rest)) : rest.length < cs.length := by
  unfold spanMarkup at h
  split at h
  · exact Nat.lt_succ_of_lt (spanDeclaration_length h)
  · simp only [Option.some.injEq, Prod.mk.injEq] at h
    obtain ⟨_, rfl⟩ := h
    exact length_drop_dropWhile_lt ..
  · simp only at h
    split at h
    · simp only [Option.some.injEq, Prod.mk.injEq] at h
      obtain ⟨_, rfl⟩ := h
      exact length_drop_dropWhile_lt ..
    · simp at h
  · simp only [Option.map_eq_some_iff, Prod.mk.injEq] at h
    obtain ⟨⟨a, b⟩, h', _, rfl⟩ := h
    exact spanTag_length h'

/-! ## Tokens -/

/-- The tokens of a text, closing tags not yet matched. An angle as the very last character is
passed over. -/
def lexemes : List Char → List Token
  | [] => []
  | c :: r =>
    if c = '<' then
      if r.isEmpty then []
      else
        match _h : spanMarkup r with
        | none => [.malformed]
        | some (t, rest) => t :: lexemes rest
    else .text (c :: r.takeWhile (· != '<')) :: lexemes (r.dropWhile (· != '<'))
termination_by cs => cs.length
decreasing_by
  · exact Nat.lt_succ_of_lt (spanMarkup_length _h)
  · exact Nat.lt_succ_of_le (length_dropWhile_le ..)

/-- The tokens up to the first closing tag that does not close the innermost open element. -/
def matched (opened : List (List Char)) : List Token → List Token
  | [] => []
  | .start name attributes :: ts => .start name attributes :: matched (name :: opened) ts
  | .close name :: ts =>
    match opened with
    | innermost :: outer =>
      if innermost = name then .close name :: matched outer ts else [.malformed]
    | [] => [.malformed]
  | t :: ts => t :: matched opened ts

/-- The tokens of a document, which may begin with one byte order mark. -/
def tokens : List Char → List Token
  | c :: r => matched [] (lexemes (if c.toNat = 0xFEFF then r else c :: r))
  | [] => []

end BusCompliance.Xml
