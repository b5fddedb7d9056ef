import BusCompliance.Proofs.Json.Written
import BusCompliance.Proofs.Text.Case
import BusCompliance.Proofs.Wire.Document
import BusCompliance.Wire.Json

/-!
# JSON documents in any spelling

The document of a message with its member names in any case: the object of each field has a spelling
of its own. No object has two members of one name in any case, so every member is found by its name.
-/

namespace BusCompliance.Wire

open Text (Spelling)

/-! ## Members of a field -/

namespace StatedField

variable (σ : Spelling) (s : StatedField)

def membersIn : List (String × Json.Value) :=
  [(σ.word "NAME", .string s.name), (σ.word "TYPE", .string s.typeName)] ++
    s.bits.elim [] (fun bits => [(σ.word "BITS", .string bits)]) ++
    [(σ.word "VALUE", .string s.text)]

/-- The object that states a field, its member names in a spelling. -/
def jsonIn : Json.Value := .object (s.membersIn σ)

theorem membersIn_distinct : ((s.membersIn σ).map fun m => Text.upper m.1).Nodup := by
  unfold membersIn
  cases s.bits with
  | none =>
    have h : (["NAME", "TYPE", "VALUE"].map Text.upper).Nodup := by decide +kernel
    simpa using h
  | some bits =>
    have h : (["NAME", "TYPE", "BITS", "VALUE"].map Text.upper).Nodup := by decide +kernel
    simpa using h

end StatedField

def jsonFieldIn (σ : Spelling) (f : Field) : Json.Value := (statedIn σ f).jsonIn σ

theorem memberText_of_mem {members : List (String × Json.Value)} {part : JsonPart}
    {text : String} (key : String) (hdistinct : (members.map fun m => Text.upper m.1).Nodup)
    (hmem : (key, .string text) ∈ members) (hkey : Text.upper key = Text.upper part.key) :
    memberText members part = .ok (some text) := by
  rw [memberText, Json.member?_of_mem hdistinct hmem hkey]
  rfl

theorem memberText_bitsIn (σ : Spelling) (s : StatedField) :
    memberText (s.membersIn σ) .bits = .ok s.bits := by
  cases hb : s.bits with
  | some bits =>
    have hmem : (σ.word "BITS", .string bits) ∈ s.membersIn σ := by
      simp [StatedField.membersIn, hb]
    exact memberText_of_mem _ (s.membersIn_distinct σ) hmem (σ.upper_word _)
  | none =>
    have habsent : Text.upper JsonPart.bits.key ∉ ["NAME", "TYPE", "VALUE"].map Text.upper := by
      decide +kernel
    have hmember : Json.member? (s.membersIn σ) JsonPart.bits.key = none := by
      refine Json.member?_absent ?_
      unfold StatedField.membersIn
      rw [hb]
      simpa using habsent
    rw [memberText, hmember]

/-! ## Fields are read -/

theorem readValue_of_isFloat {type : ValueType} {bits : Option String} (hbits : bits.isSome)
    (hfloat : type.isFloat = true) (text text' : String) :
    readValue type bits text = readValue type bits text' := by
  obtain ⟨b, rfl⟩ := Option.isSome_iff_exists.mp hbits
  simp only [readValue, hfloat]

/-- The object of a stated field is read as the field, or its fault is reported. -/
theorem fieldOfValue_jsonIn (σ : Spelling) (s : StatedField) :
    fieldOfValue (s.jsonIn σ) = s.read := by
  have hdistinct := s.membersIn_distinct σ
  have hname : memberText (s.membersIn σ) .name = .ok (some s.name) := by
    refine memberText_of_mem (σ.word "NAME") hdistinct ?_ (σ.upper_word _)
    simp [StatedField.membersIn]
  have htype : memberText (s.membersIn σ) .type = .ok (some s.typeName) := by
    refine memberText_of_mem (σ.word "TYPE") hdistinct ?_ (σ.upper_word _)
    simp [StatedField.membersIn]
  have htext : memberText (s.membersIn σ) .value = .ok (some s.text) := by
    refine memberText_of_mem (σ.word "VALUE") hdistinct ?_ (σ.upper_word _)
    simp [StatedField.membersIn]
  show fieldOfMembers (s.membersIn σ) = s.read
  simp only [fieldOfMembers, StatedField.read, hname, htype, memberText_bitsIn, htext, bind,
    Except.bind]
  cases readType s.typeName with
  | error e => rfl
  | ok type =>
    simp only
    split
    · rename_i h
      -- a float is read from its bits, with no text at all
      rw [readValue_of_isFloat h.1 h.2 "" s.text]
    · rfl

theorem fieldOfValue_jsonFieldIn (σ : Spelling) (f : Field) :
    fieldOfValue (jsonFieldIn σ f) = .ok f := by
  rw [jsonFieldIn, fieldOfValue_jsonIn, read_statedIn]

theorem mapM_fieldOfValue (τ : Field → Spelling) (fs : List Field) :
    (fs.map fun f => jsonFieldIn (τ f) f).mapM fieldOfValue = .ok fs := by
  induction fs with
  | nil => rfl
  | cons f fs ih =>
    rw [List.map_cons, List.mapM_cons, fieldOfValue_jsonFieldIn, ih]
    rfl

/-! ## Members of a message -/

section

variable (σ : Spelling) (τ : Field → Spelling) (m : Message) (subject : String)

def messageMembersIn : List (String × Json.Value) :=
  let fields := m.fields.toList.map fun f => jsonFieldIn (τ f) f
  [(σ.word "SUBJECT", .string subject), (σ.word "KIND", .string (σ.word m.kind.name))] ++
    (if fields.isEmpty then [] else [(σ.word "FIELD", .array fields)])

/-- The document of a message, its own object in one spelling and the object of each field in
another. -/
def jsonMessageIn : Json.Value :=
  .object [(σ.word "MESSAGE", .object (messageMembersIn σ τ m subject))]

theorem messageMembersIn_distinct :
    ((messageMembersIn σ τ m subject).map fun m => Text.upper m.1).Nodup := by
  unfold messageMembersIn
  simp only
  split
  · have h : (["SUBJECT", "KIND"].map Text.upper).Nodup := by decide +kernel
    simpa using h
  · have h : (["SUBJECT", "KIND", "FIELD"].map Text.upper).Nodup := by decide +kernel
    simpa using h

theorem fieldsOf_messageMembersIn :
    fieldsOf (Json.member? (messageMembersIn σ τ m subject) "FIELD") = .ok m.fields.toList := by
  -- a message without fields is written without a list of them
  by_cases hnil : m.fields.toList = []
  · have habsent : Text.upper "FIELD" ∉ ["SUBJECT", "KIND"].map Text.upper := by decide +kernel
    have hmember : Json.member? (messageMembersIn σ τ m subject) "FIELD" = none := by
      refine Json.member?_absent ?_
      unfold messageMembersIn
      rw [hnil]
      simpa using habsent
    rw [hmember, hnil]
    rfl
  · have hmem : (σ.word "FIELD", .array (m.fields.toList.map fun f => jsonFieldIn (τ f) f)) ∈
        messageMembersIn σ τ m subject := by
      simp [messageMembersIn, hnil]
    rw [Json.member?_of_mem (messageMembersIn_distinct σ τ m subject) hmem (σ.upper_word _)]
    exact mapM_fieldOfValue τ m.fields.toList

end

/-! ## Depth -/

theorem StatedField.fits_jsonIn (σ : Spelling) (s : StatedField) (n : Nat) :
    (s.jsonIn σ).Fits (n + 1) := by
  refine .object ?_
  intro m hm
  unfold StatedField.membersIn at hm
  cases hb : s.bits with
  | none =>
    simp only [hb, Option.elim_none, List.append_nil, List.cons_append, List.nil_append,
      List.mem_cons, List.not_mem_nil, or_false] at hm
    rcases hm with rfl | rfl | rfl
    all_goals exact .string _
  | some bits =>
    simp only [hb, Option.elim_some, List.cons_append, List.nil_append, List.mem_cons,
      List.not_mem_nil, or_false] at hm
    rcases hm with rfl | rfl | rfl | rfl
    all_goals exact .string _

section

variable (σ : Spelling) (τ : Field → Spelling) (m : Message) (subject : String)

/-- A document is nested four deep, far from the limit. -/
theorem fits_jsonMessageIn (n : Nat) : (jsonMessageIn σ τ m subject).Fits (n + 4) := by
  have hfields : (Json.Value.array (m.fields.toList.map fun f => jsonFieldIn (τ f) f)).Fits
      (n + 2) := by
    refine .array ?_
    intro v hv
    obtain ⟨f, _, rfl⟩ := List.mem_map.mp hv
    exact (statedIn (τ f) f).fits_jsonIn (τ f) n
  have hbody : (Json.Value.object (messageMembersIn σ τ m subject)).Fits (n + 3) := by
    refine .object ?_
    intro x hx
    simp only [messageMembersIn, List.cons_append, List.nil_append, List.mem_cons] at hx
    rcases hx with rfl | rfl | hx
    · exact .string _
    · exact .string _
    · split at hx
      · cases hx
      · rw [List.mem_singleton.mp hx]
        exact hfields
  refine .object ?_
  intro x hx
  rw [List.mem_singleton.mp hx]
  exact hbody

/-! ## Messages are read -/

theorem messageOfJson_jsonMessageIn :
    messageOfJson (String.ofList (jsonMessageIn σ τ m subject).render) =
      m.underSubject subject := by
  have hfits : (jsonMessageIn σ τ m subject).Fits Json.depthLimit :=
    fits_jsonMessageIn σ τ m subject 123
  have hdocument : jsonDocument (String.ofList (jsonMessageIn σ τ m subject).render) =
      .ok (.object [(σ.word "MESSAGE", .object (messageMembersIn σ τ m subject))]) := by
    rw [jsonDocument, String.toList_ofList, Json.parse?_render hfits]
    rfl
  have hbody : Json.member? [(σ.word "MESSAGE", .object (messageMembersIn σ τ m subject))]
      "MESSAGE" = some (.object (messageMembersIn σ τ m subject)) :=
    Json.member?_of_mem (List.pairwise_singleton _ _) List.mem_cons_self (σ.upper_word _)
  have hdistinct := messageMembersIn_distinct σ τ m subject
  have hkind : memberText (messageMembersIn σ τ m subject) .kind =
      .ok (some (σ.word m.kind.name)) := by
    refine memberText_of_mem (σ.word "KIND") hdistinct ?_ (σ.upper_word _)
    simp [messageMembersIn]
  have hsubject : memberText (messageMembersIn σ τ m subject) .subject = .ok (some subject) := by
    refine memberText_of_mem (σ.word "SUBJECT") hdistinct ?_ (σ.upper_word _)
    simp [messageMembersIn]
  rw [← startOf_addAll]
  simp only [messageOfJson, hdocument, asObject, hbody, hkind, hsubject,
    fieldsOf_messageMembersIn, Option.elim_some, Kind.ofName_word, startOf, bind, Except.bind]
  split
  · contradiction
  · rename_i he
    cases he
    rfl
  · rename_i s hne he
    cases he
    rw [if_neg hne]
    cases (Message.new m.kind).setSubject subject <;> rfl

end

end BusCompliance.Wire
