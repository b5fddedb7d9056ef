import BusCompliance.Message

/-!
# Cursors

A restartable walk over a fixed list. Going past the end is an error that leaves the cursor where
it is.
-/

namespace BusCompliance

structure Cursor (α : Type) where
  items : List α
  position : Nat
  exhausted : Error

namespace Cursor

variable {α : Type}

def start (items : List α) (exhausted : Error) : Cursor α := ⟨items, 0, exhausted⟩

def hasNext (c : Cursor α) : Bool := c.position < c.items.length

/-- The next item, and the cursor behind it. -/
def next (c : Cursor α) : Except Error α × Cursor α :=
  match c.items[c.position]? with
  | some x => (.ok x, { c with position := c.position + 1 })
  | none => (.error c.exhausted, c)

def reset (c : Cursor α) : Cursor α := { c with position := 0 }

def size (c : Cursor α) : Nat := c.items.length

def isEmpty (c : Cursor α) : Bool := c.items.isEmpty

end Cursor

/-! ## Fields of a message -/

inductive FieldSelector
  | all
  | header
  | nonHeader
deriving DecidableEq, Repr

def FieldSelector.selects (header : List String) (name : String) : FieldSelector → Bool
  | .all => true
  | .header => header.contains name
  | .nonHeader => !header.contains name

/-- A cursor over the selected fields, in the order of their names. -/
def fieldCursor (m : Message) (selector : FieldSelector) (header : List String) : Cursor Field :=
  .start (m.fields.toList.filter fun f => selector.selects header f.name) .fieldsExhausted

/-! ## Schema ids -/

/-- A cursor over the ids in order. Repeated ids stay. -/
def schemaIdCursor (ids : List String) : Cursor String :=
  .start (ids.mergeSort (· ≤ ·)) .idsExhausted

end BusCompliance
