/-!
# Subject elements

A template describes a subject element by element, from left to right.
-/

namespace BusCompliance

/-- What the token of an element has to be. -/
inductive TokenRule
  /-- This text. -/
  | literal (text : String)
  /-- The value of the first of these fields that is present. -/
  | field (names : List String)
  /-- Any token, or one of these values if there are any. -/
  | variable (values : List String)
deriving DecidableEq, Repr

structure SubjectElement where
  name : String
  rule : TokenRule
  /-- The element may be left out at the end, or filled. -/
  optional : Bool
deriving DecidableEq, Repr

/-- The token of an element without a value. -/
def fillToken : String := "FILL"

end BusCompliance
