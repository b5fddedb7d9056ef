import BusCompliance.Text.Quoted

/-!
# Hexadecimal text

Bytes as pairs of hex digits, and numbers in base sixteen. Upper case is written, either case is
read.
-/

namespace BusCompliance.Hex

/-- The upper-case digit of a number below sixteen. -/
def digit (d : Nat) : Char := if d < 10 then Char.ofNat (48 + d) else Char.ofNat (55 + d)

/-- The value of a hex digit in either case. -/
def value? (c : Char) : Option Nat :=
  let n := c.toNat
  if 48 ≤ n ∧ n ≤ 57 then some (n - 48)
  else if 65 ≤ n ∧ n ≤ 70 then some (n - 55)
  else if 97 ≤ n ∧ n ≤ 102 then some (n - 87)
  else none

/-! ## Bytes -/

def encodeByte (b : UInt8) : List Char := [digit (b.toNat / 16), digit (b.toNat % 16)]

/-- Two upper-case digits for each byte. -/
def encode (bytes : List UInt8) : List Char := bytes.flatMap encodeByte

/-- Why a text is not a run of hex pairs. -/
inductive Fault
  | oddLength
  /-- The byte at this position of the text is no hex digit. -/
  | invalid (byte : UInt8) (position : Nat)
deriving DecidableEq, Repr

def Fault.message : Fault → String
  | .oddLength => "Odd number of digits"
  | .invalid byte position =>
    s!"Invalid character {Text.quotedChar (Char.ofNat byte.toNat)} at position {position}"

/-- Pairs of digits from the given position on. The text comes as its UTF-8 bytes, since that is
what positions count. -/
def decodePairs (position : Nat) : List UInt8 → Except Fault (List UInt8)
  | [] => .ok []
  | [_] => .error .oddLength
  | a :: b :: r =>
    match value? (Char.ofNat a.toNat), value? (Char.ofNat b.toNat) with
    | none, _ => .error (.invalid a position)
    | some _, none => .error (.invalid b (position + 1))
    | some x, some y => (decodePairs (position + 2) r).map (UInt8.ofNat (16 * x + y) :: ·)

/-- The bytes that a text of hex pairs spells. An odd length is reported before anything else. -/
def decode (cs : List Char) : Except Fault (List UInt8) :=
  let bytes := cs.flatMap String.utf8EncodeChar
  if bytes.length % 2 = 1 then .error .oddLength else decodePairs 0 bytes

/-! ## Numbers -/

/-- The number in exactly `width` upper-case digits, its lowest ones. -/
def fixed : Nat → Nat → List Char
  | 0, _ => []
  | width + 1, n => fixed width (n / 16) ++ [digit (n % 16)]

def ofDigits? (cs : List Char) : Option Nat :=
  if cs.isEmpty then none
  else cs.foldl (fun acc c => acc.bind fun n => (value? c).map (16 * n + ·)) (some 0)

/-- A number in base sixteen, with an optional plus sign and any number of leading zeros. -/
def number? : List Char → Option Nat
  | '+' :: r => ofDigits? r
  | cs => ofDigits? cs

end BusCompliance.Hex
