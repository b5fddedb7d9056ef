import BusCompliance.Error
import BusCompliance.Number.IntegerType
import BusCompliance.Text.Blank
import BusCompliance.Text.Case

/-!
# Specification versions

A version is a number such as 201900, and its folder is named 2019.00.
-/

namespace BusCompliance

/-- The version that the library ships. -/
def currentVersion : Nat := 201900

/-- The folder of a version: all but the last two digits, a dot, and those two. -/
def versionFolder (version : Nat) : String :=
  let low := version % 100
  let zero := if low < 10 then "0" else ""
  s!"{Natural.text (version / 100)}.{zero}{Natural.text low}"

inductive VersionSelector
  | current
  | exact (version : Nat)
deriving DecidableEq, Repr

namespace VersionSelector

/-- The word CURRENT in any case, or a number of 32 bits. -/
def ofText (text : String) : Except Error VersionSelector :=
  let trimmed := Text.trim text
  if Text.sameLetters trimmed "CURRENT" then .ok .current
  else
    match IntegerType.u32.read? trimmed.toList with
    | some n => .ok (.exact n.val.toNat)
    | none => .error (.invalidVersion trimmed)

def resolve : VersionSelector → Nat
  | .current => currentVersion
  | .exact version => version

def text : VersionSelector → String
  | .current => "CURRENT"
  | .exact version => Natural.text version

end VersionSelector

end BusCompliance
