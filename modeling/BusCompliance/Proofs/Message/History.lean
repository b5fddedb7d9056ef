import BusCompliance.Message.Call
import BusCompliance.Proofs.Outcome
import BusCompliance.Proofs.Text.Utf8
import Mathlib.Data.Set.Card

/-!
# A message is what was last written

A message holds under each name the value that was last written there since the name was last
cleared, and nothing under any other name. A call that is refused leaves it as it was.
-/

namespace BusCompliance.Message

/-! ## What a call says of a name -/

/-- The call puts the value under the name. -/
inductive Call.Writes : Call → String → Value → Prop
  | add (f : Field) : Writes (.add f) f.name f.value
  | set {name : String} (h : Text.allBlank name = false) (value : Value) :
      Writes (.set name value) name value

/-- The call takes the field of the name out. -/
inductive Call.Clears : Call → String → Prop
  | clear {name : String} (h : Text.allBlank name = false) : Clears (.clear name) name
  | clearAll (name : String) : Clears .clearAll name

def Call.Spares (c : Call) (name : String) : Prop := ¬c.Clears name ∧ ∀ value, ¬c.Writes name value

/-- The value was written last under the name, which was not cleared since. -/
def Call.Leave (calls : List Call) (name : String) (value : Value) : Prop :=
  ∃ before call after, calls = before ++ call :: after ∧ Call.Writes call name value ∧
    ∀ c ∈ after, Call.Spares c name

theorem Call.leave_concat_iff {calls : List Call} {c : Call} {name : String} {value : Value} :
    Leave (calls ++ [c]) name value ↔
      c.Writes name value ∨ Leave calls name value ∧ c.Spares name :=
  exists_latest_concat_iff

/-- The call is refused. -/
inductive Call.Refused : Call → Error → Prop
  | set {name : String} (h : Text.allBlank name = true) (value : Value) :
      Refused (.set name value) .blankFieldName
  | clear {name : String} (h : Text.allBlank name = true) : Refused (.clear name) .blankFieldName
  | setSubject {subject : String} (h : Text.allBlank subject = true) :
      Refused (.setSubject subject) .blankSubject

variable {m : Message} {c : Call} {calls : List Call} {name : String} {value : Value} {f : Field}

/-! ## One call -/

/-- The value that the message holds under a name. -/
def value? (m : Message) (name : String) : Option Value := (m.field? name).map (·.value)

theorem value?_add : (m.add f).value? name = if f.name = name then some f.value else m.value? name := by
  unfold value?
  rw [field?_add]
  split <;> rfl

theorem value?_erase {gone : String} :
    ({ m with fields := m.fields.erase gone } : Message).value? name =
      if gone = name then none else m.value? name := by
  unfold value? field?
  simp only [Roster.get?_erase]
  split <;> rfl

theorem call_set_filled (h : Text.allBlank name = false) :
    m.call (.set name value) = (.ok (some (m.has name)), m.add ⟨name, value, h⟩) := by
  simp [call, set, Field.make, h, attempt, Except.map]

theorem call_clear_filled (h : Text.allBlank name = false) :
    m.call (.clear name) =
      (.ok (some (m.has name)), { m with fields := m.fields.erase name }) := by
  simp [call, clear, h, attempt]

/-- A refused call changes nothing. -/
theorem call_refused {e : Error} (h : c.Refused e) : m.call c = (.error e, m) := by
  cases h with
  | set h value => simp [call, set, Field.make, h, attempt, Except.map]
  | clear h => simp [call, clear, h, attempt]
  | setSubject h => simp [call, setSubject, h, attempt]

theorem refused_of_call {e : Error} (h : (m.call c).1 = .error e) : c.Refused e := by
  cases c with
  | add f => cases h
  | set name value =>
    cases hname : Text.allBlank name with
    | false =>
      rw [call_set_filled hname] at h
      cases h
    | true =>
      rw [call_refused (.set hname value)] at h
      cases h
      exact .set hname value
  | clear name =>
    cases hname : Text.allBlank name with
    | false =>
      rw [call_clear_filled hname] at h
      cases h
    | true =>
      rw [call_refused (.clear hname)] at h
      cases h
      exact .clear hname
  | setSubject subject =>
    cases hsubject : Text.allBlank subject with
    | false =>
      simp [call, setSubject, hsubject, attempt] at h
    | true =>
      rw [call_refused (.setSubject hsubject)] at h
      cases h
      exact .setSubject hsubject
  | _ => cases h

theorem value?_call_writes (h : c.Writes name value) :
    (m.call c).2.value? name = some value := by
  cases h with
  | add f => exact value?_add.trans (if_pos rfl)
  | set h value =>
    rw [call_set_filled h]
    exact value?_add.trans (if_pos rfl)

theorem value?_call_clears (h : c.Clears name) : (m.call c).2.value? name = none := by
  cases h with
  | clear h =>
    rw [call_clear_filled h]
    exact value?_erase.trans (if_pos rfl)
  | clearAll name => rfl

theorem value?_call_spares (h : c.Spares name) : (m.call c).2.value? name = m.value? name := by
  obtain ⟨hclears, hwrites⟩ := h
  cases c with
  | add f =>
    refine value?_add.trans (if_neg ?_)
    rintro rfl
    exact hwrites f.value (.add f)
  | set n value =>
    cases hblank : Text.allBlank n with
    | true => rw [call_refused (.set hblank value)]
    | false =>
      rw [call_set_filled hblank]
      refine value?_add.trans (if_neg ?_)
      rintro rfl
      exact hwrites value (.set hblank value)
  | clear n =>
    cases hblank : Text.allBlank n with
    | true => rw [call_refused (.clear hblank)]
    | false =>
      rw [call_clear_filled hblank]
      refine value?_erase.trans (if_neg ?_)
      rintro rfl
      exact hclears (.clear hblank)
  | clearAll => exact absurd (.clearAll name) hclears
  | setSubject subject =>
    cases hblank : Text.allBlank subject with
    | true => rw [call_refused (.setSubject hblank)]
    | false => simp [call, setSubject, hblank, attempt, value?, field?]
  | _ => rfl

/-- A call leaves a value under a name if it writes it there, or if it spares the name and the value
was there. -/
theorem value?_call_iff : (m.call c).2.value? name = some value ↔
    c.Writes name value ∨ m.value? name = some value ∧ c.Spares name := by
  by_cases hwrites : ∃ written, c.Writes name written
  · obtain ⟨written, hwritten⟩ := hwrites
    constructor
    · intro h
      rw [value?_call_writes hwritten] at h
      cases h
      exact .inl hwritten
    · rintro (h | ⟨-, hspares⟩)
      · exact value?_call_writes h
      · exact absurd hwritten (hspares.2 written)
  rw [not_exists] at hwrites
  by_cases hclears : c.Clears name
  · rw [value?_call_clears hclears]
    constructor
    · intro h
      cases h
    · rintro (h | ⟨-, hspares⟩)
      · exact absurd h (hwrites value)
      · exact absurd hclears hspares.1
  · have hspares : c.Spares name := ⟨hclears, hwrites⟩
    rw [value?_call_spares hspares]
    constructor
    · intro h
      exact .inr ⟨h, hspares⟩
    · rintro (h | ⟨h, -⟩)
      · exact absurd h (hwrites value)
      · exact h

/-! ## The map -/

theorem eq_of_parts {g : Field} (hname : g.name = f.name) (hvalue : g.value = f.value) : g = f := by
  cases f
  cases g
  simp_all

theorem mem_fields_iff : f ∈ m.fields.toList ↔ m.value? f.name = some f.value := by
  unfold value? field?
  constructor
  · intro hf
    rw [Roster.get?_of_mem hf]
    rfl
  · intro h
    obtain ⟨g, hg, hvalue⟩ := Option.map_eq_some_iff.mp h
    rw [← eq_of_parts (Roster.key_of_get? hg) hvalue]
    exact Roster.mem_of_get? hg

theorem has_eq_true_iff : m.has name = true ↔ ∃ value, m.value? name = some value := by
  unfold has Roster.contains value? field?
  rw [Option.isSome_iff_exists]
  simp

theorem field_eq_ok_iff : m.field name = .ok f ↔ f.name = name ∧ m.value? name = some f.value := by
  constructor
  · intro h
    unfold field at h
    split at h
    · cases h
    · split at h
      · rename_i g hg
        cases h
        refine ⟨Roster.key_of_get? hg, ?_⟩
        unfold value?
        rw [hg]
        rfl
      · cases h
  · rintro ⟨rfl, h⟩
    have hget : m.field? f.name = some f := Roster.get?_of_mem (mem_fields_iff.mpr h)
    simp [field, f.named, hget]

theorem field_eq_error_iff {e : Error} : m.field name = .error e ↔
    if Text.allBlank name then e = .blankFieldName
    else e = .fieldNotFound name ∧ ∀ value, m.value? name ≠ some value := by
  unfold field value?
  split
  · simp [eq_comm]
  · cases m.field? name <;> simp [eq_comm]

theorem size_eq_ncard : m.fields.size = {name | ∃ value, m.value? name = some value}.ncard := by
  have hset : {name | ∃ value, m.value? name = some value} =
      ((m.fields.toList.map Field.name).toFinset : Set String) := by
    ext name
    simp only [Set.mem_ofPred_eq, List.coe_toFinset, List.mem_map]
    constructor
    · rintro ⟨value, h⟩
      obtain ⟨f, hf, -⟩ := Option.map_eq_some_iff.mp h
      exact ⟨f, Roster.mem_of_get? hf, Roster.key_of_get? hf⟩
    · rintro ⟨f, hf, rfl⟩
      exact ⟨f.value, mem_fields_iff.mp hf⟩
  have hnodup : (m.fields.toList.map Field.name).Nodup := by
    refine List.pairwise_map.mpr (m.fields.sorted.imp ?_)
    intro f g hlt heq
    exact String.lt_irrefl _ (heq ▸ hlt)
  rw [hset, Set.ncard_coe_finset, List.toFinset_card_of_nodup hnodup, List.length_map]
  rfl

/-! ## Runs of calls -/

theorem value?_behind_iff (kind : Kind) (calls : List Call) :
    ((new kind).behind calls).value? name = some value ↔ Call.Leave calls name value := by
  induction calls using List.reverseRecOn generalizing name value with
  | nil =>
    constructor
    · intro h
      cases h
    · rintro ⟨before, call, after, hcalls, -⟩
      simp at hcalls
  | append_singleton calls c ih =>
    unfold behind at ih ⊢
    rw [List.foldl_append, List.foldl_cons, List.foldl_nil, value?_call_iff, ih,
      Call.leave_concat_iff]

/-- The message is the map that the calls leave: one field for each name that has a value, in the
order of the bytes of the names. -/
structure IsMapOf (m : Message) (calls : List Call) : Prop where
  mem_iff : ∀ f, f ∈ m.fields.toList ↔ Call.Leave calls f.name f.value
  increasing : m.fields.toList.Pairwise fun a b => Text.utf8 a.name < Text.utf8 b.name
  named : ∀ f ∈ m.fields.toList, Text.allBlank f.name = false
  has_iff : ∀ name, m.has name = true ↔ ∃ value, Call.Leave calls name value
  field_ok : ∀ name f, m.field name = .ok f ↔ f.name = name ∧ Call.Leave calls name f.value
  field_error : ∀ name e, m.field name = .error e ↔
    if Text.allBlank name then e = .blankFieldName
    else e = .fieldNotFound name ∧ ∀ value, ¬Call.Leave calls name value
  size_eq : m.fields.size = {name | ∃ value, Call.Leave calls name value}.ncard

/-- What the next call comes to. A refused one leaves the message whole. -/
structure Answers (m : Message) (calls : List Call) : Prop where
  add : ∀ f, ∃ was, (m.call (.add f)).1 = .ok (some was) ∧
    (was = true ↔ ∃ value, Call.Leave calls f.name value)
  set : ∀ name value, Text.allBlank name = false → ∃ was,
    (m.call (.set name value)).1 = .ok (some was) ∧ (was = true ↔ ∃ v, Call.Leave calls name v)
  clear : ∀ name, Text.allBlank name = false → ∃ was,
    (m.call (.clear name)).1 = .ok (some was) ∧ (was = true ↔ ∃ v, Call.Leave calls name v)
  refused_iff : ∀ c e, (m.call c).1 = .error e ↔ c.Refused e
  refused_keeps : ∀ c e, (m.call c).1 = .error e → (m.call c).2 = m

theorem isMapOf_behind (kind : Kind) (calls : List Call) :
    ((new kind).behind calls).IsMapOf calls where
  mem_iff f := by rw [mem_fields_iff, value?_behind_iff]
  increasing := ((new kind).behind calls).fields.sorted.imp fun h => Text.utf8_lt h
  named f _ := f.named
  has_iff name := by simp only [has_eq_true_iff, value?_behind_iff]
  field_ok name f := by rw [field_eq_ok_iff, value?_behind_iff]
  field_error name e := by simp only [field_eq_error_iff, ne_eq, value?_behind_iff]
  size_eq := by simp only [size_eq_ncard, value?_behind_iff]

theorem answers_behind (kind : Kind) (calls : List Call) :
    ((new kind).behind calls).Answers calls where
  add f := ⟨_, rfl, by simp only [has_eq_true_iff, value?_behind_iff]⟩
  set name value h := by
    rw [call_set_filled h]
    exact ⟨_, rfl, by simp only [has_eq_true_iff, value?_behind_iff]⟩
  clear name h := by
    rw [call_clear_filled h]
    exact ⟨_, rfl, by simp only [has_eq_true_iff, value?_behind_iff]⟩
  refused_iff c e := ⟨refused_of_call, fun h => by rw [call_refused h]⟩
  refused_keeps c e h := by rw [call_refused (refused_of_call h)]

/-- Behind any calls, a message that began empty is the map of what they left. The next call tells
whether a field was there before, and leaves all as it was if it fails. -/
theorem calls_finiteMap (kind : Kind) (calls : List Call) :
    ((new kind).behind calls).IsMapOf calls ∧ ((new kind).behind calls).Answers calls :=
  ⟨isMapOf_behind kind calls, answers_behind kind calls⟩

end BusCompliance.Message
