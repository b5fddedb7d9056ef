import BusCompliance.Text.Unprinted

/-!
# Quoted literals

How a piece of text is shown inside a report: between quotes, with what does not print escaped.
-/

namespace BusCompliance.Text

/-- One character of a literal that is written between `quote` marks. -/
def escapeQuoted (quote c : Char) : List Char :=
  if c = quote then ['\\', c]
  else if c = '\\' then ['\\', '\\']
  else if c = '\n' then ['\\', 'n']
  else if c = '\r' then ['\\', 'r']
  else if c = '\t' then ['\\', 't']
  else if c.toNat = 0 then ['\\', '0']
  else if isUnprinted c then "\\u\x7b".toList ++ Nat.toDigits 16 c.toNat ++ ['\x7d']
  else [c]

/-- The text as a literal between double quotes. -/
def quoted (s : String) : String :=
  String.ofList ('\"' :: s.toList.flatMap (escapeQuoted '\"') ++ ['\"'])

/-- The character as a literal between single quotes. -/
def quotedChar (c : Char) : String :=
  String.ofList ('\x27' :: escapeQuoted '\x27' c ++ ['\x27'])

end BusCompliance.Text
