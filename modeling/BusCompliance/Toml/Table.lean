import BusCompliance.Toml.Value

/-!
# TOML tables

Putting a value at a dotted key. A table that is complete stays as it is, and no key is ever given
a second value.
-/

namespace BusCompliance.Toml

abbrev Members := List (String × Value)

/-- Change the value of a key, or give it one. -/
def Members.update (ms : Members) (key : String) (f : Option Value → Option Value) :
    Option Members :=
  match ms with
  | [] => (f none).map fun v => [(key, v)]
  | (k, v) :: rest =>
    if k = key then (f (some v)).map fun w => (k, w) :: rest
    else (Members.update rest key f).map ((k, v) :: ·)

/-- Change the table that a path leads to. Tables that are missing come to be on the way. A dotted
key does not lead into a table with a header of its own; a listed array leads into its last item. -/
def descend (dotted : Bool) : List String → (Origin → Members → Option Members) → Origin →
    Members → Option Members
  | [], f, origin, ms => f origin ms
  | k :: ks, f, _, ms => ms.update k fun v =>
    match v with
    | none =>
      let origin := if dotted then .dottedKey else .onTheWay
      (descend dotted ks f origin []).map (.table origin)
    | some (.table origin inner) =>
      if origin = .braces ∨ (dotted ∧ origin = .header) then none
      else (descend dotted ks f origin inner).map (.table origin)
    | some (.array true items) =>
      match items.getLast? with
      | some (.table origin inner) =>
        (descend dotted ks f origin inner).map fun ms =>
          .array true (items.dropLast ++ [.table origin ms])
      | _ => none
    | some _ => none

/-- Give a new key its value. -/
def Members.add (ms : Members) (key : String) (v : Value) : Option Members :=
  ms.update key fun old => if old.isSome then none else some v

/-- Put a value at a dotted key. The table it goes into may be made by dotted keys only. -/
def Members.assign (ms : Members) (origin : Origin) (key : List String) (v : Value) :
    Option Members :=
  match key.getLast? with
  | none => none
  | some last =>
    let path := key.dropLast
    descend true path (fun origin ms =>
      if !path.isEmpty ∧ origin ≠ .dottedKey then none else ms.add last v) origin ms

/-- The table between braces that holds the values of some keys. -/
def tableOf? (pairs : List (List String × Value)) : Option Value :=
  (pairs.foldlM (fun ms (key, v) => Members.assign ms .header key v) []).map (.table .braces)

end BusCompliance.Toml
