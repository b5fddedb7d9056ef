import BusCompliance.Cursor
import Mathlib.Data.List.Basic
import Mathlib.Data.List.Perm.Basic

/-!
# Cursors replay their items

Whatever calls were made of a cursor, the next item is the one behind those returned since the last
reset. The cursors over the header fields of a message and over its other fields share out the
fields that the cursor over all of them visits.
-/

namespace BusCompliance

namespace Cursor

/-! ## Calls -/

inductive Call
  | hasNext
  | next
  | reset
deriving DecidableEq, Repr

inductive Answer (α : Type)
  | more (b : Bool)
  | item (x : Except Error α)
  | rewound

variable {α : Type}

def answer (c : Cursor α) : Call → Answer α × Cursor α
  | .hasNext => (.more c.hasNext, c)
  | .next => (.item c.next.1, c.next.2)
  | .reset => (.rewound, c.reset)

/-- The answers to calls made one after the other, and the cursor behind them. -/
def run (c : Cursor α) : List Call → List (Answer α) × Cursor α
  | [] => ([], c)
  | call :: calls =>
    let (first, d) := c.answer call
    let (rest, e) := d.run calls
    (first :: rest, e)

/-- The items returned so far, behind another answer. -/
def Answer.after (seen : List α) : Answer α → List α
  | .item (.ok x) => seen ++ [x]
  | .rewound => []
  | _ => seen

/-- The items that were returned since the last reset. -/
def returned (answers : List (Answer α)) : List α := answers.foldl Answer.after []

/-! ## Steps -/

/-- The cursor stands behind the first items of its list. -/
structure StandsBehind (c : Cursor α) (items seen : List α) (e : Error) : Prop where
  items_eq : c.items = items
  exhausted_eq : c.exhausted = e
  position_eq : c.position = seen.length
  seen_prefix : seen <+: items

variable {c : Cursor α} {items seen : List α} {e : Error}

theorem standsBehind_start (items : List α) (e : Error) : (start items e).StandsBehind items [] e :=
  ⟨rfl, rfl, rfl, List.nil_prefix⟩

theorem next_of_getElem? {x : α} (h : c.items[c.position]? = some x) :
    c.next = (.ok x, { c with position := c.position + 1 }) := by
  unfold next
  simp [h]

theorem next_of_none (h : c.items[c.position]? = none) : c.next = (.error c.exhausted, c) := by
  unfold next
  simp [h]

theorem StandsBehind.step (h : c.StandsBehind items seen e) (call : Call) :
    (c.answer call).2.StandsBehind items ((c.answer call).1.after seen) e := by
  obtain ⟨rfl, rfl, hposition, hseen⟩ := h
  cases call with
  | hasNext => exact ⟨rfl, rfl, hposition, hseen⟩
  | reset => exact ⟨rfl, rfl, rfl, List.nil_prefix⟩
  | next =>
    unfold answer
    cases hx : c.items[c.position]? with
    | none =>
      rw [next_of_none hx]
      exact ⟨rfl, rfl, hposition, hseen⟩
    | some x =>
      rw [next_of_getElem? hx]
      refine ⟨rfl, rfl, by simp [Answer.after, hposition], ?_⟩
      -- what was returned is the list up to the position, and the item stands there
      have htake : seen = c.items.take c.position := by
        rw [hposition]
        exact List.prefix_iff_eq_take.mp hseen
      have hmore : seen ++ [x] = c.items.take (c.position + 1) := by
        rw [List.take_add_one, hx, htake]
        simp
      simp only [Answer.after, hmore]
      exact List.take_prefix _ _

theorem StandsBehind.run (h : c.StandsBehind items seen e) (calls : List Call) :
    (c.run calls).2.StandsBehind items ((c.run calls).1.foldl Answer.after seen) e := by
  induction calls generalizing c seen with
  | nil => exact h
  | cons call calls ih => exact ih (h.step call)

/-! ## What comes next -/

theorem StandsBehind.next_ok_iff (h : c.StandsBehind items seen e) {x : α} :
    c.next.1 = .ok x ↔ items[seen.length]? = some x := by
  obtain ⟨rfl, rfl, hposition, -⟩ := h
  rw [← hposition]
  unfold next
  cases c.items[c.position]? <;> simp

theorem StandsBehind.getElem?_eq_none_iff (h : c.StandsBehind items seen e) :
    items[seen.length]? = none ↔ seen = items := by
  rw [List.getElem?_eq_none_iff]
  constructor
  · intro hlength
    exact h.seen_prefix.eq_of_length_le hlength
  · rintro rfl
    exact Nat.le_refl _

theorem StandsBehind.next_error_iff (h : c.StandsBehind items seen e) {err : Error} :
    c.next.1 = .error err ↔ err = e ∧ seen = items := by
  rw [← h.getElem?_eq_none_iff]
  obtain ⟨rfl, rfl, hposition, -⟩ := h
  rw [← hposition]
  unfold next
  cases c.items[c.position]? <;> simp [eq_comm]

theorem hasNext_iff : c.hasNext = true ↔ ∃ x, c.next.1 = .ok x := by
  unfold hasNext next
  by_cases hlt : c.position < c.items.length
  · simp [hlt]
  · simp [Nat.le_of_not_lt hlt]

theorem next_error_keeps {err : Error} (h : c.next.1 = .error err) : c.next.2 = c := by
  unfold next at h ⊢
  cases hx : c.items[c.position]? with
  | none => rfl
  | some x => simp [hx] at h

/-- What a cursor answers next, where some items were returned since the last reset. -/
structure Continues (c : Cursor α) (items seen : List α) (e : Error) : Prop where
  seen_prefix : seen <+: items
  next_ok : ∀ x, c.next.1 = .ok x ↔ items[seen.length]? = some x
  has_next : c.hasNext = true ↔ ∃ x, c.next.1 = .ok x
  next_error : ∀ err, c.next.1 = .error err ↔ err = e ∧ seen = items
  error_keeps : ∀ err, c.next.1 = .error err → c.next.2 = c

/-- Behind any calls the cursor goes on where they have left it. -/
def Replays (c : Cursor α) (items : List α) (e : Error) : Prop :=
  ∀ calls, (c.run calls).2.Continues items (returned (c.run calls).1) e

theorem replays_start (items : List α) (e : Error) : (start items e).Replays items e := by
  intro calls
  have h := (standsBehind_start items e).run calls
  exact ⟨h.seen_prefix, fun _ => h.next_ok_iff, hasNext_iff, fun _ => h.next_error_iff,
    fun _ => next_error_keeps⟩

end Cursor

/-! ## Fields and ids -/

section

variable (m : Message) (header ids : List String)

theorem fieldCursor_all :
    fieldCursor m .all header = .start m.fields.toList .fieldsExhausted := by
  simp [fieldCursor, FieldSelector.selects]

/-- Header fields and others are subsequences of all fields, and share them out. -/
structure Shares (header : List String) (all named others : List Field) : Prop where
  named_sublist : named.Sublist all
  others_sublist : others.Sublist all
  disjoint : named.Disjoint others
  covers : (named ++ others).Perm all
  named_iff : ∀ f ∈ all, f ∈ named ↔ f.name ∈ header

theorem shares_filter (all : List Field) :
    Shares header all (all.filter fun f => FieldSelector.header.selects header f.name)
      (all.filter fun f => FieldSelector.nonHeader.selects header f.name) := by
  unfold FieldSelector.selects
  constructor
  · exact List.filter_sublist
  · exact List.filter_sublist
  · intro f hnamed hother
    simp_all
  · exact List.filter_append_perm _ all
  · intro f hf
    simp [hf]

theorem pairwise_mergeSort_ids : (ids.mergeSort (· ≤ ·)).Pairwise (· ≤ ·) := by
  refine List.Pairwise.imp of_decide_eq_true (List.pairwise_mergeSort ?_ ?_ ids)
  · intro a b c hab hbc
    exact decide_eq_true (String.le_trans (of_decide_eq_true hab) (of_decide_eq_true hbc))
  · intro a b
    simpa using String.le_total a b

end

/-- The cursors over header fields and over other fields share out what the cursor over all fields
visits. These and the cursors over ids go on where any calls have left them, and are exhausted
exactly behind their last item. -/
theorem cursors_replay :
    (∀ (m : Message) (header : List String), ∃ named others : List Field,
      (fieldCursor m .all header).Replays m.fields.toList .fieldsExhausted ∧
      (fieldCursor m .header header).Replays named .fieldsExhausted ∧
      (fieldCursor m .nonHeader header).Replays others .fieldsExhausted ∧
      Shares header m.fields.toList named others) ∧
    (∀ ids : List String, ∃ sorted : List String,
      (schemaIdCursor ids).Replays sorted .idsExhausted ∧
      sorted.Perm ids ∧ sorted.Pairwise (· ≤ ·)) ∧
    Error.fieldsExhausted.kind = .exhausted ∧ Error.idsExhausted.kind = .exhausted := by
  refine ⟨fun m header => ?_, fun ids => ?_, rfl, rfl⟩
  · refine ⟨_, _, ?_, Cursor.replays_start _ _, Cursor.replays_start _ _,
      shares_filter header m.fields.toList⟩
    rw [fieldCursor_all]
    exact Cursor.replays_start _ _
  · exact ⟨_, Cursor.replays_start _ _, List.mergeSort_perm _ _, pairwise_mergeSort_ids ids⟩

end BusCompliance
