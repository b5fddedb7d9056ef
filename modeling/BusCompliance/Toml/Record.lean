import BusCompliance.Toml.Document

/-!
# TOML records

A record is a table with known keys. It may also be written as an array of its members in their
fixed order, as far as they are given; then everything up to the last member without a default has
to be there.
-/

namespace BusCompliance.Toml

/-- The members for a list of names. No other member is allowed. -/
def Members.take? (names : List String) (ms : Members) : Option (List (Option Value)) :=
  if ms.all fun m => names.contains m.1 then some (names.map fun name => ms.lookup name) else none

/-- The items of an array under the names in order. -/
def underNames : List String → List Value → List (Option Value)
  | [], _ => []
  | _ :: names, [] => none :: underNames names []
  | _ :: names, v :: vs => some v :: underNames names vs

/-- The members of a record, of which an array has to give the first `least`. -/
def record? (names : List String) (least : Nat) : Value → Option (List (Option Value))
  | .table _ ms => Members.take? names ms
  | .array _ items => if least ≤ items.length then some (underNames names items) else none
  | _ => none

theorem sizeOf_lookup_lt {ms : Members} {key : String} {v : Value}
    (h : ms.lookup key = some v) : sizeOf v < sizeOf ms := by
  induction ms with
  | nil => simp at h
  | cons m ms ih =>
    obtain ⟨k, w⟩ := m
    rw [List.lookup_cons] at h
    split at h
    · cases h
      simp only [List.cons.sizeOf_spec, Prod.mk.sizeOf_spec]
      omega
    · have := ih h
      simp only [List.cons.sizeOf_spec]
      omega

theorem sizeOf_underNames_lt {names : List String} {items : List Value} {v : Value}
    (h : some v ∈ underNames names items) : sizeOf v < sizeOf items := by
  fun_induction underNames names items with
  | case1 => simp at h
  | case2 _ _ ih =>
    rcases List.mem_cons.mp h with h | h
    · simp at h
    · exact ih h
  | case3 _ _ w ws ih =>
    rcases List.mem_cons.mp h with h | h
    · cases h
      simp only [List.cons.sizeOf_spec]
      omega
    · have := ih h
      simp only [List.cons.sizeOf_spec]
      omega

/-- A member of a record is smaller than the record. -/
theorem sizeOf_record?_lt {names : List String} {least : Nat} {r v : Value}
    {ms : List (Option Value)} (h : record? names least r = some ms) (hv : some v ∈ ms) :
    sizeOf v < sizeOf r := by
  unfold record? at h
  split at h
  · unfold Members.take? at h
    split at h
    · cases h
      obtain ⟨key, _, hk⟩ := List.mem_map.mp hv
      have := sizeOf_lookup_lt hk
      simp only [Value.table.sizeOf_spec]
      omega
    · simp at h
  · split at h
    · cases h
      have := sizeOf_underNames_lt hv
      simp only [Value.array.sizeOf_spec]
      omega
    · simp at h
  · simp at h

/-! ## Members -/

def Value.string? : Value → Option String
  | .string s => some s
  | _ => none

def Value.bool? : Value → Option Bool
  | .bool b => some b
  | _ => none

/-- A number of the type's range. -/
def Value.number? (t : IntegerType) : Value → Option Nat
  | .integer n => (t.number? n).map (·.val.toNat)
  | _ => none

def Value.items? : Value → Option (List Value)
  | .array _ items => some items
  | _ => none

def Value.list? {α : Type} (item? : Value → Option α) (v : Value) : Option (List α) :=
  v.items?.bind fun items => items.mapM item?

def Value.isEmpty : Value → Bool
  | .table _ [] | .array _ [] => true
  | _ => false

/-- One of a set of words, which may also stand as the only key of a table with nothing in it. -/
def Value.word? {α : Type} (all : List α) (word : α → String) (v : Value) : Option α :=
  let find (s : String) := all.find? fun x => word x == s
  match v with
  | .string s => find s
  | .table _ [(k, v)] => if v.isEmpty then find k else none
  | _ => none

/-- A member that may be missing. -/
def optional? {α : Type} (read? : Value → Option α) : Option Value → Option (Option α)
  | none => some none
  | some v => (read? v).map some

/-- A member that has a default. -/
def default? {α : Type} (missing : α) (read? : Value → Option α) : Option Value → Option α
  | none => some missing
  | some v => read? v

/-- A member that has to be there. -/
def required? {α : Type} (read? : Value → Option α) (v : Option Value) : Option α := v.bind read?

end BusCompliance.Toml
