import BusCompliance.Number.Natural
import BusCompliance.Text.Dotted
import BusCompliance.Text.Hex

/-!
# Internet addresses

Four decimal octets, or eight groups of hex digits of which a run of zero groups may be written as
two colons and the last two groups as four octets.
-/

namespace BusCompliance.Address

/-- One to three digits of a number up to 255, without a leading zero. -/
def isOctet (cs : List Char) : Bool :=
  match Natural.ofDigits? cs with
  | some n => cs.length ≤ 3 && n ≤ 255 && (cs.head? != some '0' || cs.length == 1)
  | none => false

def isFourOctets (cs : List Char) : Bool :=
  let octets := cs.splitOn '.'
  octets.length == 4 && octets.all isOctet

/-- One to four hex digits. -/
def isGroup (cs : List Char) : Bool := (Hex.ofDigits? cs).isSome && cs.length ≤ 4

/-- How many groups a run of groups between colons stands for. Only the last one may be octets, and
only where `octets` allows it; the empty text is the empty run. -/
def groups? (octets : Bool) (cs : List Char) : Option Nat :=
  if cs.isEmpty then some 0
  else
    let pieces := cs.splitOn ':'
    let last := pieces.getLast?.getD []
    if !pieces.dropLast.all isGroup then none
    else if isGroup last then some pieces.length
    else if octets && isFourOctets last then some (pieces.length + 1)
    else none

/-- Two colons stand for one group at least. -/
def isEightGroups (cs : List Char) : Bool :=
  match Text.splitMark "::".toList cs with
  | none => groups? true cs == some 8
  | some (front, back) =>
    match groups? false front, groups? true back with
    | some a, some b => a + b ≤ 7
    | _, _ => false

def isAddress (text : String) : Bool := isFourOctets text.toList || isEightGroups text.toList

end BusCompliance.Address
