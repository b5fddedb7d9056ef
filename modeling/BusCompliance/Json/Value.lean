import BusCompliance.Json.Number
import BusCompliance.Roster
import BusCompliance.Text.Case
import BusCompliance.Text.Hex

/-!
# JSON values

A document as a tree, its compact text, and look-up of members by name. Members stay in the order
of the document.
-/

namespace BusCompliance.Json

inductive Value
  | null
  | bool (b : Bool)
  | number (n : Number)
  | string (s : String)
  | array (items : List Value)
  | object (members : List (String × Value))
deriving Inhabited

/-! ## Text -/

/-- One character of a string: only quotes, backslashes and control characters are escaped. -/
def escapeChar (c : Char) : List Char :=
  if c = '\"' then ['\\', '\"']
  else if c = '\\' then ['\\', '\\']
  else if c = '\x08' then ['\\', 'b']
  else if c = '\x0c' then ['\\', 'f']
  else if c = '\n' then ['\\', 'n']
  else if c = '\r' then ['\\', 'r']
  else if c = '\t' then ['\\', 't']
  else if c.toNat < 0x20 then
    ['\\', 'u', '0', '0', Hex.digit (c.toNat / 16), (Hex.digit (c.toNat % 16)).toLower]
  else [c]

def quote (s : String) : List Char := '\"' :: s.toList.flatMap escapeChar ++ ['\"']

mutual

/-- The compact text: no blank anywhere outside strings. -/
def Value.render : Value → List Char
  | .null => "null".toList
  | .bool b => (if b then "true" else "false").toList
  | .number n => n.chars
  | .string s => quote s
  | .array items => '[' :: renderItems items ++ [']']
  | .object members => '\x7b' :: renderMembers members ++ ['\x7d']

def renderItems : List Value → List Char
  | [] => []
  | [v] => v.render
  | v :: vs => v.render ++ ',' :: renderItems vs

def renderMembers : List (String × Value) → List Char
  | [] => []
  | [(k, v)] => quote k ++ ':' :: v.render
  | (k, v) :: ms => quote k ++ ':' :: v.render ++ ',' :: renderMembers ms

end

/-! ## Members -/

/-- The members in the order of their names, the last of a name standing for all. -/
def sortedMembers (members : List (String × Value)) : Roster (String × Value) Prod.fst :=
  .ofList members

/-- The first member, in the order of names, whose name has these letters in any case. -/
def member? (members : List (String × Value)) (name : String) : Option Value :=
  ((sortedMembers members).toList.find? fun m => Text.sameLetters m.1 name).map (·.2)

end BusCompliance.Json
