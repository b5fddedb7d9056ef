import BusCompliance.Message
import BusCompliance.Proofs.Text.Case
import BusCompliance.Proofs.Value.Text

/-!
# What a document states

A document states a kind, a subject and fields. Both formats begin with a message of the kind under
the subject and put the fields into it. Of a field a document states texts only, which need not
amount to one; `StatedField.read` says what they come to. The names of types and kinds are read in
any spelling.
-/

namespace BusCompliance

/-! ## Messages under a subject -/

/-- What a document under a subject says of a message: no schema, and an empty subject is none. -/
def Message.underSubject (m : Message) (subject : String) : Except Error Message :=
  if subject = "" then .ok m.unbound.clearSubject else m.unbound.setSubject subject

namespace Message

theorem ext_parts {a b : Message} (hk : a.kind = b.kind) (hs : a.subject = b.subject)
    (hf : a.fields = b.fields) (hb : a.binding = b.binding) : a = b := by
  cases a; cases b; simp_all

theorem addAll_eq (m : Message) (fs : List Field) :
    m.addAll fs = { m with fields := fs.foldl Roster.insert m.fields } := by
  induction fs generalizing m with
  | nil => rfl
  | cons f fs ih => exact ih (m.add f)

theorem subject_ne_empty {m : Message} {s : String} (h : m.subject = some s) : s ≠ "" := by
  rintro rfl
  exact absurd (m.subject_filled "" h) (by decide)

theorem underSubject_own (m : Message) : m.underSubject (m.subject.getD "") = .ok m.unbound := by
  cases hs : m.subject with
  | none =>
    have hm : m.unbound.clearSubject = m.unbound := ext_parts rfl hs.symm rfl rfl
    rw [underSubject, Option.getD_none, if_pos rfl, hm]
  | some s =>
    have hfilled := m.subject_filled s hs
    have hm : ({ m.unbound with subject := some s, subject_filled := by simpa using hfilled } :
        Message) = m.unbound := ext_parts rfl hs.symm rfl rfl
    rw [underSubject, Option.getD_some, if_neg (subject_ne_empty hs), setSubject, dif_pos hfilled, hm]

end Message

/-! ## Words in a spelling -/

theorem ValueType.ofName?_word (σ : Text.Spelling) (t : ValueType) :
    ofName? (σ.word t.name) = some t := by
  rw [ofName?, Text.upper_trim_congr (σ.upper_word t.name)]
  exact ofName?_name t

@[simp] theorem Kind.ofName_word (σ : Text.Spelling) (k : Kind) :
    ofName (σ.word k.name) = .ok k := by
  have hname : ofName? (σ.word k.name) = some k := by
    rw [ofName?, Text.upper_trim_congr (σ.upper_word k.name)]
    exact ofName?_name k
  rw [ofName, hname]

@[simp] theorem Wire.readType_word (σ : Text.Spelling) (t : ValueType) :
    readType (σ.word t.name) = .ok t := by
  rw [readType, ValueType.ofName?_word]

/-! ## Messages that are begun -/

namespace Wire

/-- The message that a document begins: a kind, and a subject that is not empty. -/
def startOf (kind : Kind) (subject : String) : Except Error Message :=
  if subject = "" then .ok (.new kind) else (Message.new kind).setSubject subject

theorem startOf_addAll (m : Message) (subject : String) :
    (startOf m.kind subject).map (·.addAll m.fields.toList) = m.underSubject subject := by
  -- the fields are put in one by one, which makes up the roster they came from
  have hfields : m.fields.toList.foldl Roster.insert Roster.empty = m.fields :=
    m.fields.ofList_toList
  unfold startOf Message.underSubject
  split
  · refine congrArg Except.ok ((Message.addAll_eq _ _).trans ?_)
    exact Message.ext_parts rfl rfl hfields rfl
  · unfold Message.setSubject
    split
    · refine congrArg Except.ok ((Message.addAll_eq _ _).trans ?_)
      exact Message.ext_parts rfl rfl hfields rfl
    · rfl

/-! ## Fields that are stated -/

/-- The texts that stand for a field: its name, the name of its type, the bits if there are any, and
the text of its value. -/
structure StatedField where
  name : String
  typeName : String
  bits : Option String
  text : String

/-- The field that the texts stand for. A bad type is reported before a bad value, and that before a
bad name. -/
def StatedField.read (s : StatedField) : Except Error Field := do
  let type ← readType s.typeName
  let value ← readValue type s.bits s.text
  Field.make s.name value

/-- The texts that are written for a field. -/
def stated (f : Field) : StatedField := ⟨f.name, f.type.name, f.value.bits?, f.value.wireText⟩

/-- These texts with the name of the type in a spelling. -/
def statedIn (σ : Text.Spelling) (f : Field) : StatedField :=
  { stated f with typeName := σ.word f.type.name }

theorem read_statedIn (σ : Text.Spelling) (f : Field) : (statedIn σ f).read = .ok f := by
  have hvalue : readValue f.type f.value.bits? f.value.wireText = .ok f.value :=
    readValue_wire f.value
  unfold StatedField.read statedIn stated
  simp only [readType_word]
  show (readValue f.type f.value.bits? f.value.wireText).bind _ = _
  rw [hvalue]
  exact Field.make_self f

theorem read_stated (f : Field) : (stated f).read = .ok f := read_statedIn .plain f

end Wire

end BusCompliance
