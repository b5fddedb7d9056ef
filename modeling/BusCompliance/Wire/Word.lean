import BusCompliance.Json.Document
import BusCompliance.SchemaLevel
import BusCompliance.Status
import BusCompliance.Wire.Value

/-!
# Words and statuses in JSON

The values that other programs store beside messages: words of a fixed set, levels and statuses.
-/

namespace BusCompliance.Wire

/-- One of a set of words, which may also stand as the only key of an object, with null behind
it. -/
def wordOfJson? {α : Type} (all : List α) (word : α → String) (v : Json.Value) : Option α :=
  match v with
  | .string s | .object [(s, .null)] => all.find? fun x => word x == s
  | _ => none

def typeOfJson? : Json.Value → Option ValueType
  | .string s => ValueType.ofName? s
  | _ => none

def levelOfJson? : Json.Value → Option SchemaLevel
  | .number (.integer n) => if 0 ≤ n then (SchemaLevel.ofNat n.toNat).toOption else none
  | _ => none

def codeOfJson? : Json.Value → Option Int32
  | .number (.integer n) => (IntegerType.i32.number? n).map fun n => Int32.ofInt n.val
  | _ => none

def textOfJson? : Json.Value → Option String
  | .string s => some s
  | _ => none

def statusKeys : List String := ["classification", "code", "custom_code", "reason"]

/-- The member of a name, which may stand once only. -/
def onlyMember? (members : List (String × Json.Value)) (name : String) : Option Json.Value :=
  match members.filter fun m => m.1 == name with
  | [(_, v)] => some v
  | _ => none

/-- The parts of a status: the members of an object, in which others do not matter, or the items of
an array. -/
def statusPartsOfJson? (cs : List Char) : Option (List Json.Value) :=
  match Json.parse? cs with
  | some (.array items) => some items
  | _ => (Json.parseNamed? statusKeys cs).bind fun members =>
    statusKeys.mapM (onlyMember? members)

def statusOfJson? (text : String) : Option Status := do
  match ← statusPartsOfJson? text.toList with
  | [cls, code, customCode, reason] =>
    return ⟨← wordOfJson? StatusClass.all StatusClass.word cls,
      ← wordOfJson? StatusCode.all StatusCode.word code, ← codeOfJson? customCode,
      ← textOfJson? reason⟩
  | _ => none

end BusCompliance.Wire
