import BusCompliance.Toml.Statement

/-!
# TOML documents

A document is a table. Its statements are carried out one after the other, each header naming the
table that the following values go into.
-/

namespace BusCompliance.Toml

/-- A table gets a header. It must be new, or known only from the way to other headers. -/
def openTable (root : Members) (path : List String) : Option Members :=
  match path.getLast? with
  | none => none
  | some last =>
    descend false path.dropLast (fun _ ms => ms.update last fun v =>
      match v with
      | none => some (.table .header [])
      | some (.table .onTheWay inner) => some (.table .header inner)
      | some _ => none) .header root

/-- A listed array gets one more table. -/
def openListed (root : Members) (path : List String) : Option Members :=
  match path.getLast? with
  | none => none
  | some last =>
    descend false path.dropLast (fun _ ms => ms.update last fun v =>
      match v with
      | none => some (.array true [.table .header []])
      | some (.array true items) => some (.array true (items ++ [.table .header []]))
      | some _ => none) .header root

/-- The document so far, and the path of the table that values go into. -/
structure Draft where
  root : Members
  current : List String

def Draft.take (d : Draft) : Statement → Option Draft
  | .assign key v =>
    (descend false d.current (fun origin ms => ms.assign origin key v) .header d.root).map
      fun root => { d with root }
  | .table path => (openTable d.root path).map fun root => ⟨root, path⟩
  | .listed path => (openListed d.root path).map fun root => ⟨root, path⟩

/-- The members of the document that a text holds. One byte order mark may come first. -/
def parse? (text : String) : Option Members := do
  let cs :=
    match text.toList with
    | c :: r => if c.toNat = 0xFEFF then r else c :: r
    | [] => []
  let draft ← (← statements (← tokens cs)).foldlM Draft.take ⟨[], []⟩
  return draft.root

end BusCompliance.Toml
