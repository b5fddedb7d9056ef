import BusCompliance.Number.Natural
import BusCompliance.Text.Hex

/-!
# XML entities

Five characters are written as entities, in text and in attribute values alike. Reading also
accepts character numbers. `unescape_escape` says that reading undoes writing.
-/

namespace BusCompliance.Xml

def escapeChar (c : Char) : List Char :=
  if c = '<' then "&lt;".toList
  else if c = '>' then "&gt;".toList
  else if c = '&' then "&amp;".toList
  else if c = '\x27' then "&apos;".toList
  else if c = '\"' then "&quot;".toList
  else [c]

def escape (cs : List Char) : List Char := cs.flatMap escapeChar

/-! ## Reading -/

/-- The character of a number, which is neither zero nor a surrogate nor too large. -/
def ofCode? (n : Nat) : Option Char :=
  if h : n.isValidChar then if n = 0 then none else some (Char.ofNatAux n h) else none

/-- A character number: at most seven decimal digits, or an x and at most six hex digits. -/
def ofNumber? : List Char → Option Char
  | 'x' :: ds => if 6 < ds.length then none else (Hex.ofDigits? ds).bind ofCode?
  | ds => if 7 < ds.length then none else (Natural.ofDigits? ds).bind ofCode?

/-- The character that stands between an ampersand and a semicolon. -/
def entity? (name : List Char) : Option Char :=
  match name with
  | '#' :: number => ofNumber? number
  | _ =>
    if name = "lt".toList then some '<'
    else if name = "gt".toList then some '>'
    else if name = "amp".toList then some '&'
    else if name = "apos".toList then some '\x27'
    else if name = "quot".toList then some '\"'
    else none

/-- Read on, inside an entity whose name so far is given backwards, or outside of one. A second
ampersand or the end of the text inside an entity is an error; a semicolon outside is text. -/
def unescapeFrom : Option (List Char) → List Char → Option (List Char)
  | none, [] => some []
  | some _, [] => none
  | none, c :: r => if c = '&' then unescapeFrom (some []) r else (unescapeFrom none r).map (c :: ·)
  | some name, c :: r =>
    if c = ';' then
      match entity? name.reverse with
      | none => none
      | some x => (unescapeFrom none r).map (x :: ·)
    else if c = '&' then none
    else unescapeFrom (some (c :: name)) r

/-- The text with every entity replaced by its character. -/
def unescape (cs : List Char) : Option (List Char) := unescapeFrom none cs

theorem unescapeFrom_escapeChar (c : Char) (r : List Char) :
    unescapeFrom none (escapeChar c ++ r) = (unescapeFrom none r).map (c :: ·) := by
  simp only [escapeChar]
  split
  · subst_vars; rfl
  split
  · subst_vars; rfl
  split
  · subst_vars; rfl
  split
  · subst_vars; rfl
  split
  · subst_vars; rfl
  · rename_i h _ _
    simp [unescapeFrom, h]

theorem unescape_escape (cs : List Char) : unescape (escape cs) = some cs := by
  induction cs with
  | nil => rfl
  | cons c cs ih =>
    simp only [unescape, escape, List.flatMap_cons] at *
    rw [unescapeFrom_escapeChar, ih]
    rfl

end BusCompliance.Xml
