/-!
# Dotted names

Schema ids and subjects are segments joined by dots. `segments` and `join` undo each other, as
`join_segments` says, and a text always has at least one segment.
-/

namespace BusCompliance.Text

/-- The pieces between the dots; the empty text is one empty segment. -/
def segments (s : String) : List String := (s.toList.splitOn '.').map String.ofList

/-- The segments with a dot between each two. -/
def join (parts : List String) : String :=
  String.ofList (List.intercalate ['.'] (parts.map String.toList))

theorem join_segments (s : String) : join (segments s) = s := by
  simp [join, segments, Function.comp_def, List.intercalate_splitOn]

/-- What stands before and after the first `sep`, if there is one. -/
def splitFirst (sep : Char) : List Char → Option (List Char × List Char)
  | [] => none
  | c :: r => if c = sep then some ([], r) else (splitFirst sep r).map fun (a, b) => (c :: a, b)

/-- What stands before and after the first occurrence of a mark of one or more characters. -/
def splitMark (mark : List Char) : List Char → Option (List Char × List Char)
  | [] => none
  | c :: r =>
    if mark.isPrefixOf (c :: r) then some ([], r.drop (mark.length - 1))
    else (splitMark mark r).map fun (a, b) => (c :: a, b)

theorem splitMark_length {mark cs a b : List Char} (h : splitMark mark cs = some (a, b)) :
    b.length < cs.length := by
  induction cs generalizing a b with
  | nil => simp [splitMark] at h
  | cons c r ih =>
    simp only [splitMark] at h
    split at h
    · simp only [Option.some.injEq, Prod.mk.injEq] at h
      obtain ⟨_, rfl⟩ := h
      simp only [List.length_drop, List.length_cons]
      omega
    · simp only [Option.map_eq_some_iff, Prod.mk.injEq] at h
      obtain ⟨⟨a', b'⟩, h', _, rfl⟩ := h
      have := ih h'
      simp only [List.length_cons] at *
      omega

/-- The text after a given beginning. -/
def dropStem (stem : List Char) (cs : List Char) : Option (List Char) :=
  if stem.isPrefixOf cs then some (cs.drop stem.length) else none

/-- The text begins with the stem. -/
def startsWith (s stem : String) : Bool := stem.toList.isPrefixOf s.toList

end BusCompliance.Text
