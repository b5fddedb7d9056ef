import BusCompliance.Wire.Json
import BusCompliance.Wire.Xml

/-!
# Document formats

The first character of a document that is not blank tells its format.
-/

namespace BusCompliance.Wire

inductive Format
  | xml
  | json
deriving DecidableEq, Repr

def Format.name : Format → String
  | .xml => "xml"
  | .json => "json"

def Format.detect? (text : String) : Option Format :=
  match (Text.trimStartChars text.toList).head? with
  | some '<' => some .xml
  | some '\x7b' => some .json
  | _ => none

/-- The message of a document in a known format. -/
def messageOf (format : Format) (text : String) : Action Message :=
  match format with
  | .xml => messageOfXml text
  | .json => Action.ofExcept (messageOfJson text)

/-- The message of a document in either format. -/
def messageOfText (text : String) : Action Message :=
  match Format.detect? text with
  | some format => messageOf format text
  | none => Action.ofExcept (.error .unknownFormat)

end BusCompliance.Wire
