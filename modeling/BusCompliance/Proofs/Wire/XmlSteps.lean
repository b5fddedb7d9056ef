import BusCompliance.Proofs.Outcome
import BusCompliance.Wire.Xml

/-!
# Tags of a message and of fields are read apart

What the tokens of a document say of its message does not depend on its FIELD elements, nor what
they say of its fields on where its MESSAGE begins and ends. `XmlReading.Step` is the reading of one
token, and `StatesFields` the grammar that a run of it amounts to.
-/

namespace BusCompliance.Wire

open Xml (Token)

/-! ## Names -/

def isMessageName (name : List Char) : Bool := Text.sameLetters (String.ofList name) "MESSAGE"

def isFieldName (name : List Char) : Bool := Text.sameLetters (String.ofList name) "FIELD"

theorem isMessageName_of_isFieldName {name : List Char} (h : isFieldName name = true) :
    isMessageName name = false := by
  have hne : Text.upper "FIELD" ≠ Text.upper "MESSAGE" := by decide +kernel
  have hfield := (Text.sameLetters_iff _ _).mp h
  refine Bool.eq_false_iff.mpr fun hmessage => hne ?_
  exact hfield.symm.trans ((Text.sameLetters_iff _ _).mp hmessage)

theorem isFieldName_of_isMessageName {name : List Char} (h : isMessageName name = true) :
    isFieldName name = false := by
  refine Bool.eq_false_iff.mpr fun hfield => ?_
  rw [isMessageName_of_isFieldName hfield] at h
  cases h

theorem isFieldName_field : isFieldName "FIELD".toList = true := by decide +kernel

theorem isMessageName_message : isMessageName "MESSAGE".toList = true := by decide +kernel

theorem not_isFieldName_message : ¬isFieldName "MESSAGE".toList = true :=
  Bool.eq_false_iff.mp (isFieldName_of_isMessageName isMessageName_message)

/-! ## Fields that are stated -/

/-- What the attributes of a tag amount to. -/
def readTag {α : Type} (read : List Xml.Attribute → Except Error α) (attributes : List Char) :
    Except Error α :=
  (Xml.attributes attributes).elim (.error .malformedXml) read

def OpenField.addText (o : OpenField) (text : List Char) : OpenField :=
  { o with text := o.text ++ text }

/-- What a token adds to the text of a field around it. A tag of the message adds nothing. -/
def contentOf? : Token → Option (List Char)
  | .text raw => Xml.unescape raw
  | .cdata content => some content
  | .start name _ | .empty name _ => if isMessageName name then some [] else none
  | .close name => if isFieldName name then none else some []
  | .skipped => some []
  | .malformed => none

/-- The fields of the FIELD elements of a document, in their order. -/
inductive StatesFields : List Token → List Field → Prop
  | nil : StatesFields [] []
  | content {t : Token} {text : List Char} {ts : List Token} {fs : List Field}
      (ht : contentOf? t = some text) (h : StatesFields ts fs) : StatesFields (t :: ts) fs
  | alone {name attributes : List Char} {o : OpenField} {f : Field} {ts : List Token}
      {fs : List Field} (hname : isFieldName name = true)
      (ho : readTag XmlReading.openFieldOf attributes = .ok o) (hf : XmlReading.finish o = .ok f)
      (h : StatesFields ts fs) : StatesFields (.empty name attributes :: ts) (f :: fs)
  | element {name attributes closed : List Char} {content : List Token}
      {texts : List (List Char)} {o : OpenField} {f : Field} {ts : List Token} {fs : List Field}
      (hname : isFieldName name = true) (ho : readTag XmlReading.openFieldOf attributes = .ok o)
      (hcontent : List.Forall₂ (fun t text => contentOf? t = some text) content texts)
      (hclosed : isFieldName closed = true)
      (hf : XmlReading.finish (o.addText texts.flatten) = .ok f) (h : StatesFields ts fs) :
      StatesFields (.start name attributes :: (content ++ .close closed :: ts)) (f :: fs)

/-- The message so far behind another token. -/
def messageAfter (message : Option Message) : Token → Except Error (Option Message)
  | .start name attributes | .empty name attributes =>
    if isMessageName name then
      if message.isSome then .error .nestedMessage
      else readTag XmlReading.messageOf attributes >>= fun start => .ok (some start)
    else .ok message
  | _ => .ok message

namespace XmlReading

variable {message message' : Option Message} {o : OpenField} {fields fs : List Field}
  {r r' : XmlReading} {t : Token} {ts : List Token}

/-! ## Steps -/

/-- A step takes up content, and opens, states or closes a field. -/
inductive Step : XmlReading → Token → XmlReading → Prop
  | content {r : XmlReading} {t : Token} {text : List Char} {message : Option Message}
      (ht : contentOf? t = some text) (hm : messageAfter r.message t = .ok message) :
      Step r t ⟨message, r.openField.map (·.addText text), r.fields⟩
  | opens {message : Option Message} {fields : List Field} {name attributes : List Char}
      {o : OpenField} (hname : isFieldName name = true)
      (ho : readTag openFieldOf attributes = .ok o) :
      Step ⟨message, none, fields⟩ (.start name attributes) ⟨message, some o, fields⟩
  | alone {message : Option Message} {fields : List Field} {name attributes : List Char}
      {o : OpenField} {f : Field} (hname : isFieldName name = true)
      (ho : readTag openFieldOf attributes = .ok o) (hf : finish o = .ok f) :
      Step ⟨message, none, fields⟩ (.empty name attributes) ⟨message, none, fields ++ [f]⟩
  | closes {message : Option Message} {fields : List Field} {name : List Char} {o : OpenField}
      {f : Field} (hname : isFieldName name = true) (hf : finish o = .ok f) :
      Step ⟨message, some o, fields⟩ (.close name) ⟨message, none, fields ++ [f]⟩

section

variable {name attributes : List Char} {isEmpty : Bool}

theorem element_of_message (hname : isMessageName name = true) (hm : r.message = none) :
    r.element name attributes isEmpty =
      readTag messageOf attributes >>= fun start => .ok { r with message := some start } := by
  have hname' : Text.sameLetters (String.ofList name) "MESSAGE" = true := hname
  unfold element readTag
  cases Xml.attributes attributes with
  | none => rfl
  | some as =>
    simp only [hname', hm, if_true, Option.isSome_none, Bool.false_eq_true, if_false,
      Option.elim_some]
    rfl

theorem element_of_field (hname : isFieldName name = true) (ho : r.openField = none) :
    r.element name attributes isEmpty = readTag openFieldOf attributes >>= fun o =>
      if isEmpty then finish o >>= fun f => .ok { r with fields := r.fields ++ [f] }
      else .ok { r with openField := some o } := by
  have hname' : Text.sameLetters (String.ofList name) "FIELD" = true := hname
  have hmessage : Text.sameLetters (String.ofList name) "MESSAGE" = false :=
    isMessageName_of_isFieldName hname
  unfold element readTag
  cases Xml.attributes attributes with
  | none => rfl
  | some as =>
    simp only [hname', hmessage, ho, if_true, Option.isSome_none, Bool.false_eq_true, if_false,
      Option.elim_some]
    rfl

theorem close_of_field (hname : isFieldName name = true) :
    (⟨message, some o, fields⟩ : XmlReading).close name =
      finish o >>= fun f => .ok ⟨message, none, fields ++ [f]⟩ :=
  if_pos hname

theorem close_of_other (hname : ¬isFieldName name = true) : r.close name = .ok r := if_neg hname

/-- No other element is taken, and none within its own kind. -/
theorem name_of_element (h : r.element name attributes isEmpty = .ok r') :
    (isMessageName name = true ∧ r.message = none) ∨
      (isFieldName name = true ∧ r.openField = none) := by
  unfold element at h
  split at h
  · cases h
  split at h
  · rename_i hname
    split at h
    · cases h
    · rename_i hm
      exact .inl ⟨hname, Option.not_isSome_iff_eq_none.mp hm⟩
  split at h
  · rename_i hname
    split at h
    · cases h
    · rename_i ho
      exact .inr ⟨hname, Option.not_isSome_iff_eq_none.mp ho⟩
  · cases h

end

theorem addText_nil (o : Option OpenField) : o.map (·.addText []) = o := by
  cases o <;> simp [OpenField.addText]

theorem Step.idle (ht : contentOf? t = some []) (hm : messageAfter r.message t = .ok message) :
    Step r t { r with message := message } := by
  have h := Step.content ht hm
  rwa [addText_nil] at h

theorem Step.of_message {name attributes : List Char} {start : Message}
    (hname : isMessageName name = true) (hm : r.message = none)
    (hstart : readTag messageOf attributes = .ok start) :
    Step r (.start name attributes) { r with message := some start } ∧
      Step r (.empty name attributes) { r with message := some start } := by
  have hnew : messageAfter r.message (.start name attributes) = .ok (some start) := by
    simp [messageAfter, hname, hm, hstart, ok_bind]
  have htext : contentOf? (.start name attributes) = some [] := by simp [contentOf?, hname]
  exact ⟨.idle htext hnew, .idle htext hnew⟩

theorem Step.of_step (h : r.step t = .ok r') : Step r t r' := by
  obtain ⟨message, o, fields⟩ := r
  cases t with
  | text raw =>
    rw [step] at h
    split at h
    · cases h
    · rename_i text htext
      cases h
      exact .content htext rfl
  | cdata content =>
    cases h
    exact .content rfl rfl
  | skipped =>
    cases h
    exact .idle rfl rfl
  | malformed => cases h
  | start name attributes =>
    rw [step] at h
    rcases name_of_element h with ⟨hname, hm⟩ | ⟨hname, ho⟩
    · rw [element_of_message hname hm, bind_eq_ok_iff] at h
      obtain ⟨start, hstart, ⟨⟩⟩ := h
      exact (Step.of_message hname hm hstart).1
    · cases ho
      rw [element_of_field hname rfl, bind_eq_ok_iff] at h
      obtain ⟨o, ho, ⟨⟩⟩ := h
      exact .opens hname ho
  | empty name attributes =>
    rw [step] at h
    rcases name_of_element h with ⟨hname, hm⟩ | ⟨hname, ho⟩
    · rw [element_of_message hname hm, bind_eq_ok_iff] at h
      obtain ⟨start, hstart, ⟨⟩⟩ := h
      exact (Step.of_message hname hm hstart).2
    · cases ho
      rw [element_of_field hname rfl, bind_eq_ok_iff] at h
      obtain ⟨o, ho, h⟩ := h
      rw [if_pos rfl, bind_eq_ok_iff] at h
      obtain ⟨f, hf, ⟨⟩⟩ := h
      exact .alone hname ho hf
  | close name =>
    rw [step, close] at h
    split at h
    · rename_i hname
      cases o with
      | none => cases h
      | some o =>
        rw [bind_eq_ok_iff] at h
        obtain ⟨f, hf, ⟨⟩⟩ := h
        exact .closes hname hf
    · rename_i hname
      cases h
      exact .idle (if_neg hname) rfl

theorem messageAfter_tag {name attributes : List Char} {text : List Char}
    (ht : (if isMessageName name then some [] else none) = some text)
    (hm : messageAfter r.message (.start name attributes) = .ok message) :
    isMessageName name = true ∧ text = [] ∧ r.message = none ∧
      ∃ start, readTag messageOf attributes = .ok start ∧ message = some start := by
  split at ht
  · rename_i hname
    cases ht
    rw [messageAfter, if_pos hname] at hm
    split at hm
    · cases hm
    · rename_i hnone
      rw [bind_eq_ok_iff] at hm
      obtain ⟨start, hstart, ⟨⟩⟩ := hm
      exact ⟨hname, rfl, Option.not_isSome_iff_eq_none.mp hnone, start, hstart, rfl⟩
  · cases ht

theorem step_content {text : List Char} (ht : contentOf? t = some text)
    (hm : messageAfter r.message t = .ok message) :
    r.step t = .ok ⟨message, r.openField.map (·.addText text), r.fields⟩ := by
  cases t with
  | text raw =>
    cases hm
    rw [step, show Xml.unescape raw = some text from ht]
    rfl
  | cdata content =>
    cases ht
    cases hm
    rfl
  | skipped =>
    cases ht
    cases hm
    rw [addText_nil]
    rfl
  | malformed => cases ht
  | start name attributes | empty name attributes =>
    obtain ⟨hname, rfl, hnone, start, hstart, rfl⟩ := messageAfter_tag ht hm
    rw [step, element_of_message hname hnone, hstart, addText_nil]
    rfl
  | close name =>
    rw [contentOf?] at ht
    split at ht
    · cases ht
    · rename_i hname
      cases ht
      cases hm
      rw [addText_nil]
      exact close_of_other hname

theorem Step.step_eq (h : Step r t r') : r.step t = .ok r' := by
  cases h with
  | content ht hm => exact step_content ht hm
  | opens hname ho =>
    rw [step, element_of_field hname rfl, ho]
    rfl
  | alone hname ho hf =>
    rw [step, element_of_field hname rfl, ho, ok_bind, if_pos rfl, hf]
    rfl
  | closes hname hf =>
    rw [step, close_of_field hname, hf]
    rfl

theorem step_eq_ok_iff : r.step t = .ok r' ↔ Step r t r' := ⟨Step.of_step, Step.step_eq⟩

/-! ## Runs -/

theorem foldlM_step_cons_iff : (t :: ts).foldlM step r = .ok r' ↔
    ∃ q, Step r t q ∧ ts.foldlM step q = .ok r' := by
  rw [List.foldlM_cons, bind_eq_ok_iff]
  simp only [step_eq_ok_iff]

theorem messageAfter_of_field {name attributes : List Char} (hname : isFieldName name = true) :
    messageAfter message (.start name attributes) = .ok message ∧
      messageAfter message (.empty name attributes) = .ok message := by
  simp [messageAfter, isMessageName_of_isFieldName hname]

theorem addText_append (o : OpenField) (a b : List Char) :
    (o.addText a).addText b = o.addText (a ++ b) := by
  simp [OpenField.addText]

theorem foldlM_step_content {open_ : Option OpenField} {texts : List (List Char)}
    (ht : List.Forall₂ (fun t text => contentOf? t = some text) ts texts)
    (hm : ts.foldlM messageAfter message = .ok message') :
    ts.foldlM step ⟨message, open_, fields⟩ =
      .ok ⟨message', open_.map (·.addText texts.flatten), fields⟩ := by
  induction ht generalizing message open_ with
  | nil =>
    cases hm
    rw [List.flatten_nil, addText_nil]
    rfl
  | @cons t text ts texts ht _ ih =>
    rw [List.foldlM_cons, bind_eq_ok_iff] at hm
    obtain ⟨q, hq, hm⟩ := hm
    have hstep := step_content (r := ⟨message, open_, fields⟩) ht hq
    rw [List.foldlM_cons, hstep, ok_bind, ih hm, Option.map_map, List.flatten_cons]
    simp only [Function.comp_def, addText_append]

/-- Fields that are stated are read, whatever the tags of the message are about. -/
theorem foldlM_step_of_states (fields : List Field) (h : StatesFields ts fs)
    (hm : ts.foldlM messageAfter message = .ok message') :
    ts.foldlM step ⟨message, none, fields⟩ = .ok ⟨message', none, fields ++ fs⟩ := by
  -- each field takes its share of the tokens, and the run of the message is split alike
  induction h generalizing message fields with
  | nil =>
    cases hm
    rw [List.append_nil]
    rfl
  | content ht _ ih =>
    rw [List.foldlM_cons, bind_eq_ok_iff] at hm
    obtain ⟨q, hq, hm⟩ := hm
    rw [foldlM_step_cons_iff]
    exact ⟨_, .content ht hq, ih _ hm⟩
  | @alone name attributes o f ts fs hname ho hf _ ih =>
    rw [List.foldlM_cons, (messageAfter_of_field hname).2, ok_bind] at hm
    rw [foldlM_step_cons_iff, List.append_cons]
    exact ⟨_, .alone hname ho hf, ih _ hm⟩
  | @element name attributes closed content texts o f ts fs hname ho hcontent hclosed hf _ ih =>
    rw [List.foldlM_cons, (messageAfter_of_field hname).1, ok_bind, foldlM_append_eq_ok_iff] at hm
    obtain ⟨inner, hinner, hm⟩ := hm
    rw [foldlM_step_cons_iff]
    refine ⟨_, .opens hname ho, ?_⟩
    rw [foldlM_append_eq_ok_iff]
    refine ⟨_, foldlM_step_content hcontent hinner, ?_⟩
    rw [foldlM_step_cons_iff, List.append_cons]
    exact ⟨_, .closes hclosed hf, ih _ hm⟩

/-- An open field is closed behind content. -/
theorem exists_closed (h : ts.foldlM step ⟨message, some o, fields⟩ = .ok r)
    (hr : r.openField = none) :
    ∃ content texts closed rest f message', ts = content ++ .close closed :: rest ∧
      List.Forall₂ (fun t text => contentOf? t = some text) content texts ∧
      isFieldName closed = true ∧
      finish (o.addText texts.flatten) = .ok f ∧
      content.foldlM messageAfter message = .ok message' ∧
      rest.foldlM step ⟨message', none, fields ++ [f]⟩ = .ok r := by
  induction ts generalizing message o with
  | nil =>
    cases h
    cases hr
  | cons t ts ih =>
    obtain ⟨q, hq, h⟩ := foldlM_step_cons_iff.mp h
    cases hq with
    | @content r t text message' ht hm =>
      obtain ⟨content, texts, closed, rest, f, message', rfl, hc, hclosed, hf, hb, hrest⟩ := ih h
      refine ⟨t :: content, text :: texts, closed, rest, f, message', rfl, .cons ht hc, hclosed,
        ?_, ?_, hrest⟩
      · rwa [addText_append] at hf
      · rw [List.foldlM_cons, hm]
        exact hb
    | closes hname hf =>
      refine ⟨[], [], _, ts, _, message, rfl, .nil, hname, ?_, rfl, h⟩
      simpa [OpenField.addText] using hf

theorem states_of_foldlM_step (h : ts.foldlM step ⟨message, none, fields⟩ = .ok r)
    (hr : r.openField = none) :
    ∃ fs, StatesFields ts fs ∧ ts.foldlM messageAfter message = .ok r.message ∧
      r.fields = fields ++ fs := by
  -- what follows an open field is shorter by more than one token
  induction hn : ts.length using Nat.strongRecOn generalizing ts message fields with
  | ind n ih =>
    subst hn
    cases ts with
    | nil =>
      cases h
      exact ⟨[], .nil, rfl, (List.append_nil _).symm⟩
    | cons t ts =>
      obtain ⟨q, hq, h⟩ := foldlM_step_cons_iff.mp h
      cases hq with
      | content ht hm =>
        obtain ⟨fs, hs, hb, hfields⟩ := ih _ (by simp) h rfl
        refine ⟨fs, .content ht hs, ?_, hfields⟩
        rw [List.foldlM_cons, hm]
        exact hb
      | alone hname ho hf =>
        obtain ⟨fs, hs, hb, hfields⟩ := ih _ (by simp) h rfl
        refine ⟨_, .alone hname ho hf hs, ?_, ?_⟩
        · rw [List.foldlM_cons, (messageAfter_of_field hname).2]
          exact hb
        · rw [hfields, List.append_assoc]
          rfl
      | opens hname ho =>
        obtain ⟨content, texts, closed, rest, f, message', rfl, hc, hclosed, hf, hb, hrest⟩ :=
          exists_closed h hr
        have hshorter : rest.length < (content ++ .close closed :: rest).length + 1 := by
          simp only [List.length_append, List.length_cons]
          omega
        obtain ⟨fs, hs, hb', hfields⟩ := ih _ hshorter hrest rfl
        refine ⟨_, .element hname ho hc hclosed hf hs, ?_, ?_⟩
        · rw [List.foldlM_cons, (messageAfter_of_field hname).1, ok_bind, foldlM_append_eq_ok_iff]
          exact ⟨message', hb, hb'⟩
        · rw [hfields, List.append_assoc]
          rfl

end XmlReading

end BusCompliance.Wire
