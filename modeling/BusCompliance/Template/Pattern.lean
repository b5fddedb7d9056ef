import BusCompliance.Template.Address
import BusCompliance.Template.Timestamp

/-!
# Content patterns

A pattern is a rule for the text of a field.
-/

namespace BusCompliance

/-- The characters of header values and of subjects: capitals, digits, hyphen and underscore. -/
def isHeaderChar (c : Char) : Bool := c.isUpper || isDigit c || c == '-' || c == '_'

inductive Pattern
  | headerString
  | time
  | address
deriving DecidableEq, Repr

namespace Pattern

def all : List Pattern := [.headerString, .time, .address]

/-- The name in a document. -/
def word : Pattern → String
  | .headerString => "HEADER_STRING"
  | .time => "TIME"
  | .address => "IP_ADDRESS"

/-- The name in a report. -/
def label : Pattern → String
  | .headerString => "Header String"
  | .time => "Timestamp"
  | .address => "IP Address"

def accepts (p : Pattern) (text : String) : Bool :=
  match p with
  | .headerString => !text.isEmpty && text.toList.all isHeaderChar
  | .time => Timestamp.isTimestamp text
  | .address => Address.isAddress text

end Pattern

end BusCompliance
