import BusCompliance.Toml.Table
import BusCompliance.Toml.Token

/-!
# TOML statements

A document is a row of statements, one a line: a value for a key, or the header of a table. Only
inside an array may a statement run over lines. Statements are read from tokens one after the
other, with the arrays and tables that are still open on a stack.
-/

namespace BusCompliance.Toml

inductive Statement
  | assign (key : List String) (v : Value)
  | table (path : List String)
  | listed (path : List String)
deriving Repr

/-- An array or table that is still open, with its last item first. -/
inductive Frame
  | array (items : List Value)
  | table (pairs : List (List String × Value)) (key : List String)

/-- What a key stands for. -/
inductive KeyUse
  | header
  | listedHeader
  | assigned
  /-- It is a key of the table with these pairs, which is open inside the frames. -/
  | member (statement : List String) (frames : List Frame) (pairs : List (List String × Value))

/-- What may come next. -/
inductive Expected
  | statement
  /-- The second bracket of a header for a listed array. -/
  | secondBracket
  /-- The rest of a key. It may end here if it is `whole`, which it is not behind a dot. -/
  | key (use : KeyUse) (segments : List String) (whole : Bool)
  /-- The first key of a table between braces, or its end. -/
  | keyOrClose (statement : List String) (frames : List Frame)
  | lastBracket (path : List String)
  | value (key : List String) (frames : List Frame)
  | separator (key : List String) (frames : List Frame)
  | lineEnd (s : Statement)

/-- How many arrays and tables may be open at once. -/
def depthLimit : Nat := 79

/-- How many segments a dotted key may have. -/
def keyLimit : Nat := 79

/-- A value is complete: it goes into the innermost open frame, or to the key of the statement. -/
def deliver (key : List String) (v : Value) : List Frame → Expected
  | [] => .lineEnd (.assign key v)
  | .array items :: fs => .separator key (.array (v :: items) :: fs)
  | .table pairs k :: fs => .separator key (.table ((k, v) :: pairs) [] :: fs)

/-! ## Keys -/

inductive KeyPiece
  | segment (s : String)
  | dot
deriving DecidableEq, Repr

def isBareKeyChar (c : Char) : Bool := c.isAlphanum || c = '_' || c = '-'

/-- Bare segments with a dot between each two. A segment that is empty leaves the dots alone. -/
def keyPieces : List (List Char) → List KeyPiece
  | [] => []
  | [cs] => if cs.isEmpty then [] else [.segment (String.ofList cs)]
  | cs :: rest =>
    if cs.isEmpty then .dot :: keyPieces rest
    else .segment (String.ofList cs) :: .dot :: keyPieces rest

/-- The pieces of a key that a token holds. -/
def keyPieces? : Token → Option (List KeyPiece)
  | .word cs =>
    let segments := cs.splitOn '.'
    if segments.all (·.all isBareKeyChar) then some (keyPieces segments) else none
  | .text cs false => some [.segment (String.ofList cs)]
  | _ => none

/-- Segments and dots take turns. -/
def addPiece : List String × Bool → KeyPiece → Option (List String × Bool)
  | (segments, false), .segment s =>
    if segments.length < keyLimit then some (segments ++ [s], true) else none
  | (segments, true), .dot => some (segments, false)
  | _, _ => none

/-- A key is complete. -/
def endKey (use : KeyUse) (segments : List String) (t : Token) : Option Expected :=
  match use, t with
  | .assigned, .equals => some (.value segments [])
  | .member key frames pairs, .equals => some (.value key (.table pairs segments :: frames))
  | .header, .closeBracket _ => some (.lineEnd (.table segments))
  | .listedHeader, .closeBracket true => some (.lastBracket segments)
  | _, _ => none

/-- The token where a key goes on or ends. -/
def takeKey (use : KeyUse) (segments : List String) (whole : Bool) (t : Token) : Option Expected :=
  match keyPieces? t with
  | some pieces =>
    (pieces.foldlM addPiece (segments, whole)).map fun (segments, whole) =>
      .key use segments whole
  | none => if whole then endKey use segments t else none

/-! ## Values -/

/-- A value starts, or is complete at once. -/
def startValue (key : List String) (frames : List Frame) (t : Token) : Option Expected :=
  match t with
  | .word cs => (wordValue? cs).map fun v => deliver key v frames
  | .text cs _ => some (deliver key (.string (String.ofList cs)) frames)
  | .openBracket _ =>
    if frames.length < depthLimit then some (.value key (.array [] :: frames)) else none
  | .openBrace => if frames.length < depthLimit then some (.keyOrClose key frames) else none
  | _ => none

/-- The token where a value is due. In an array it may also be a line end or the end of the array,
so a comma may stand behind the last item. -/
def takeValue (key : List String) (frames : List Frame) (t : Token) : Option Expected :=
  match frames, t with
  | .array _ :: _, .lineEnd => some (.value key frames)
  | .array items :: fs, .closeBracket _ => some (deliver key (.array false items.reverse) fs)
  | _, _ => startValue key frames t

/-- The token behind an item of an array or table. -/
def takeSeparator (key : List String) (frames : List Frame) (t : Token) : Option Expected :=
  match frames, t with
  | .array _ :: _, .lineEnd => some (.separator key frames)
  | .array _ :: _, .comma => some (.value key frames)
  | .array items :: fs, .closeBracket _ => some (deliver key (.array false items.reverse) fs)
  | .table pairs _ :: fs, .comma => some (.key (.member key fs pairs) [] false)
  | .table pairs _ :: fs, .closeBrace =>
    (tableOf? pairs.reverse).map fun v => deliver key v fs
  | _, _ => none

/-! ## Statements -/

def advance : Expected → Token → Option Expected
  | .statement, .lineEnd => some .statement
  | .statement, .openBracket true => some .secondBracket
  | .statement, .openBracket false => some (.key .header [] false)
  | .statement, t => takeKey .assigned [] false t
  | .secondBracket, .openBracket _ => some (.key .listedHeader [] false)
  | .secondBracket, _ => none
  | .key use segments whole, t => takeKey use segments whole t
  | .keyOrClose key frames, .closeBrace => some (deliver key (.table .braces []) frames)
  | .keyOrClose key frames, t => takeKey (.member key frames []) [] false t
  | .lastBracket path, .closeBracket _ => some (.lineEnd (.listed path))
  | .lastBracket _, _ => none
  | .value key frames, t => takeValue key frames t
  | .separator key frames, t => takeSeparator key frames t
  | .lineEnd _, _ => none

/-- The statements that tokens make up, given what may come next. -/
def statementsFrom : Expected → List Token → Option (List Statement)
  | .statement, [] => some []
  | .lineEnd s, [] => some [s]
  | _, [] => none
  | .lineEnd s, .lineEnd :: ts => (statementsFrom .statement ts).map (s :: ·)
  | e, t :: ts => (advance e t).bind fun e => statementsFrom e ts

def statements (ts : List Token) : Option (List Statement) := statementsFrom .statement ts

end BusCompliance.Toml
