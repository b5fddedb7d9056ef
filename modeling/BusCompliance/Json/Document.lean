import BusCompliance.Json.Token

/-!
# JSON documents

A document is read from its tokens one after the other, with the arrays and objects that are still
open on a stack. At most 127 may be open at once. `parseNamed?` reads an object of which only some
members matter.
-/

namespace BusCompliance.Json

/-- An array or object that is still open, with its last item first. -/
inductive Frame
  | array (items : List Value)
  | object (members : List (String × Value)) (key : String)

/-- What may come next. -/
inductive Expected
  | value
  | valueOrClose
  | key
  | keyOrClose
  | colon
  | separator

inductive Progress
  | running (frames : List Frame) (expected : Expected)
  | done (v : Value)

/-- A value is complete: it goes into the innermost open frame, or is the document. -/
def deliver (v : Value) : List Frame → Progress
  | [] => .done v
  | .array items :: fs => .running (.array (v :: items) :: fs) .separator
  | .object members key :: fs => .running (.object ((key, v) :: members) key :: fs) .separator

/-! ## Care -/

/-- How closely a value is read. A value that is skimmed only has to be well formed: its strings
and numbers need not stand for anything, and it may be nested to any depth. -/
inductive Care
  | full
  | skimmed
deriving DecidableEq, Repr

def Care.value? (care : Care) (v : Option Value) : Option Value :=
  match care with
  | .full => v
  | .skimmed => some (v.getD .null)

def Care.key? (care : Care) (s : Option String) : Option String :=
  match care with
  | .full => s
  | .skimmed => some (s.getD "")

/-- The number of frames that may be open. -/
def depthLimit : Nat := 127

/-! ## Steps -/

def openFrame (care : Care) (frame : Frame) (expected : Expected) (frames : List Frame) :
    Option Progress :=
  if care = .skimmed ∨ frames.length < depthLimit then some (.running (frame :: frames) expected)
  else none

/-- A value starts, or is complete at once. -/
def startValue (care : Care) (frames : List Frame) : Token → Option Progress
  | .text s => (care.value? (s.map .string)).map (deliver · frames)
  | .word v => (care.value? v).map (deliver · frames)
  | .openArray => openFrame care (.array []) .valueOrClose frames
  | .openObject => openFrame care (.object [] "") .keyOrClose frames
  | _ => none

def takeKey (care : Care) : List Frame → Token → Option Progress
  | .object members _ :: fs, .text s =>
    (care.key? s).map fun key => .running (.object members key :: fs) .colon
  | _, _ => none

/-- The innermost frame ends. -/
def close : List Frame → Token → Option Progress
  | .array items :: fs, .closeArray => some (deliver (.array items.reverse) fs)
  | .object members _ :: fs, .closeObject => some (deliver (.object members.reverse) fs)
  | _, _ => none

def advance (care : Care) : Progress → Token → Option Progress
  | .done _, _ => none
  | .running frames .value, t => startValue care frames t
  | .running frames .valueOrClose, t => close frames t <|> startValue care frames t
  | .running frames .key, t => takeKey care frames t
  | .running frames .keyOrClose, t => close frames t <|> takeKey care frames t
  | .running frames .colon, .colon => some (.running frames .value)
  | .running _ .colon, _ => none
  | .running (.array items :: fs) .separator, .comma =>
    some (.running (.array items :: fs) .value)
  | .running (.object members k :: fs) .separator, .comma =>
    some (.running (.object members k :: fs) .key)
  | .running frames .separator, t => close frames t

/-- Take tokens until the value is complete. -/
def finish (care : Care) : Progress → List Token → Option (Value × List Token)
  | .done v, ts => some (v, ts)
  | .running .., [] => none
  | .running frames expected, t :: ts =>
    (advance care (.running frames expected) t).bind fun p => finish care p ts

theorem finish_length {care : Care} {p : Progress} {ts rest : List Token} {v : Value}
    (h : finish care p ts = some (v, rest)) : rest.length ≤ ts.length := by
  induction ts generalizing p with
  | nil =>
    cases p with
    | done => simp only [finish, Option.some.injEq, Prod.mk.injEq] at h; simp [← h.2]
    | running => simp [finish] at h
  | cons t ts ih =>
    cases p with
    | done => simp only [finish, Option.some.injEq, Prod.mk.injEq] at h; simp [← h.2]
    | running =>
      simp only [finish, Option.bind_eq_some_iff] at h
      obtain ⟨p, _, hp⟩ := h
      exact Nat.le_succ_of_le (ih hp)

/-- The value at the start of the tokens, and what follows it. -/
def takeValue (care : Care) (ts : List Token) : Option (Value × List Token) :=
  finish care (.running [] .value) ts

/-! ## Whole texts -/

/-- The one value that a text holds. -/
def parse? (cs : List Char) : Option Value :=
  match (tokens cs).bind (takeValue .full) with
  | some (v, []) => some v
  | _ => none

/-- The members with some names, from the tokens behind the opening brace of an object. The values
of all others are skimmed. -/
def namedMembers? (names : List String) : List Token → Option (List (String × Value))
  | .text (some key) :: .colon :: ts =>
    let known := names.contains key
    match _h : takeValue (if known then .full else .skimmed) ts with
    | some (v, .comma :: rest) =>
      (namedMembers? names rest).map fun ms => if known then (key, v) :: ms else ms
    | some (v, [.closeObject]) => some (if known then [(key, v)] else [])
    | _ => none
  | _ => none
termination_by ts => ts.length
decreasing_by
  have := finish_length _h
  simp only [List.length_cons] at *
  omega

/-- The members of the object that a text holds, as far as their names are given. -/
def parseNamed? (names : List String) (cs : List Char) : Option (List (String × Value)) :=
  match tokens cs with
  | some [.openObject, .closeObject] => some []
  | some (.openObject :: ts) => namedMembers? names ts
  | _ => none

end BusCompliance.Json
