import BusCompliance.Proofs.Text.Case
import BusCompliance.Proofs.Wire.Document
import BusCompliance.Proofs.Wire.XmlSteps
import BusCompliance.Proofs.Xml.Written

/-!
# XML documents in any spelling

The document of a message with its names in any case: each element has a spelling of its own, which
its start and its end share. The invariant of the reading is `readFrom_fieldsIn`: behind the FIELD
elements of some fields these fields have been read and no element but MESSAGE is open.
-/

namespace BusCompliance

open Text (IsWord Spelling)

namespace Xml

theorem isPlainName_of_isWord {name : List Char} (h : IsWord name) : IsPlainName name := by
  refine ⟨h.1, fun c hc => ?_⟩
  have hne {d : Char} (hd : d.isAlpha = false) : c ≠ d := Text.ne_of_isAlpha (h.2 c hc) hd
  simp [isNameEnd, isSpace, hne]

theorem isTagName_of_isWord {name : List Char} (h : IsWord name) : IsTagName name := by
  have hhead {d : Char} (hd : d.isAlpha = false) : name.head? ≠ some d := fun he =>
    Text.ne_of_isAlpha (h.2 d (List.mem_of_head? he)) hd rfl
  exact ⟨isPlainName_of_isWord h, hhead rfl, hhead rfl, hhead rfl⟩

theorem isPlainName_word (σ : Spelling) {w : String} (h : IsWord w.toList) :
    IsPlainName (σ.word w).toList :=
  isPlainName_of_isWord (σ.isWord_word h)

/-- Attributes are read whose names differ in more than their case. -/
theorem attributes_written_of_upper {as : List Attribute}
    (h : ∀ a ∈ as, IsPlainName a.name.toList) (hd : (as.map fun a => Text.upper a.name).Nodup) :
    attributes (as.flatMap attributeText) = some as := by
  refine attributes_written h (List.pairwise_map.mpr ((List.pairwise_map.mp hd).imp ?_))
  intro a b hne heq
  exact hne (by rw [Text.upper, Text.upper, heq])

end Xml

namespace Wire

/-! ## What is written -/

namespace StatedField

variable (σ : Spelling) (s : StatedField)

def attributesIn : List Xml.Attribute :=
  ⟨σ.word "NAME", s.name⟩ :: ⟨σ.word "TYPE", s.typeName⟩ ::
    s.bits.elim [] fun bits => [⟨σ.word "BITS", bits⟩]

def fieldTagIn : List Char :=
  '<' :: Xml.tagText (σ.word "FIELD").toList (s.attributesIn σ)

/-- The element that states a field, its names in a spelling. -/
def xmlCharsIn : List Char :=
  s.fieldTagIn σ ++ '>' :: (Xml.escape s.text.toList ++
    '<' :: ('/' :: (σ.word "FIELD").toList ++ ['>']))

end StatedField

def xmlFieldCharsIn (σ : Spelling) (f : Field) : List Char := (statedIn σ f).xmlCharsIn σ

section

variable (σ : Spelling) (τ : Field → Spelling)

def messageAttributesIn (kind : Kind) (subject : String) : List Xml.Attribute :=
  [⟨σ.word "SUBJECT", subject⟩, ⟨σ.word "KIND", σ.word kind.name⟩]

def messageTagIn (kind : Kind) (subject : String) : List Char :=
  '<' :: Xml.tagText (σ.word "MESSAGE").toList (messageAttributesIn σ kind subject)

/-- The document of a message, its MESSAGE element in one spelling and the element of each field in
another. -/
def xmlMessageCharsIn (m : Message) (subject : String) : List Char :=
  messageTagIn σ m.kind subject ++
    if m.fields.toList = [] then ['/', '>']
    else '>' :: (m.fields.toList.flatMap (fun f => '\n' :: '\t' :: xmlFieldCharsIn (τ f) f) ++
      ['\n'] ++ '<' :: ('/' :: (σ.word "MESSAGE").toList ++ ['>']))

end

/-! ## Tags are read -/

section

variable (σ : Spelling)

theorem isTagName_fieldIn : Xml.IsTagName (σ.word "FIELD").toList :=
  Xml.isTagName_of_isWord (σ.isWord_word (by decide))

theorem isTagName_messageIn : Xml.IsTagName (σ.word "MESSAGE").toList :=
  Xml.isTagName_of_isWord (σ.isWord_word (by decide))

theorem isFieldName_fieldIn : isFieldName (σ.word "FIELD").toList = true := by
  rw [isFieldName, String.ofList_toList]
  exact σ.same "FIELD"

theorem isMessageName_messageIn : isMessageName (σ.word "MESSAGE").toList = true := by
  rw [isMessageName, String.ofList_toList]
  exact σ.same "MESSAGE"

theorem plain_attributesIn (s : StatedField) :
    ∀ a ∈ s.attributesIn σ, Xml.IsPlainName a.name.toList := by
  intro a ha
  unfold StatedField.attributesIn at ha
  rcases List.mem_cons.mp ha with rfl | ha
  · exact Xml.isPlainName_word σ (by decide : IsWord "NAME".toList)
  rcases List.mem_cons.mp ha with rfl | ha
  · exact Xml.isPlainName_word σ (by decide : IsWord "TYPE".toList)
  · cases hb : s.bits with
    | none => simp [hb] at ha
    | some bits =>
      rw [hb, Option.elim_some, List.mem_singleton] at ha
      exact ha ▸ Xml.isPlainName_word σ (by decide : IsWord "BITS".toList)

theorem attributesIn_written (s : StatedField) :
    Xml.attributes ((s.attributesIn σ).flatMap Xml.attributeText) = some (s.attributesIn σ) := by
  refine Xml.attributes_written_of_upper (plain_attributesIn σ s) ?_
  unfold StatedField.attributesIn
  cases s.bits with
  | none =>
    have h : (["NAME", "TYPE"].map Text.upper).Nodup := by decide +kernel
    simpa using h
  | some bits =>
    have h : (["NAME", "TYPE", "BITS"].map Text.upper).Nodup := by decide +kernel
    simpa using h

theorem plain_messageAttributesIn (kind : Kind) (subject : String) :
    ∀ a ∈ messageAttributesIn σ kind subject, Xml.IsPlainName a.name.toList := by
  intro a ha
  simp only [messageAttributesIn, List.mem_cons, List.not_mem_nil, or_false] at ha
  rcases ha with rfl | rfl
  · exact Xml.isPlainName_word σ (by decide : IsWord "SUBJECT".toList)
  · exact Xml.isPlainName_word σ (by decide : IsWord "KIND".toList)

theorem messageAttributesIn_written (kind : Kind) (subject : String) :
    Xml.attributes ((messageAttributesIn σ kind subject).flatMap Xml.attributeText) =
      some (messageAttributesIn σ kind subject) := by
  refine Xml.attributes_written_of_upper (plain_messageAttributesIn σ kind subject) ?_
  have h : (["SUBJECT", "KIND"].map Text.upper).Nodup := by decide +kernel
  simpa [messageAttributesIn] using h

end

namespace XmlReading

theorem attribute?_cons (a : Xml.Attribute) (as : List Xml.Attribute) (name : String) :
    attribute? (a :: as) name =
      if Text.upper a.name = name then some a.value else attribute? as name := by
  unfold attribute?
  by_cases h : Text.upper a.name = name <;> simp [h]

theorem openFieldOf_attributesIn (σ : Spelling) (s : StatedField) :
    openFieldOf (s.attributesIn σ) =
      (readType s.typeName).map fun type => ⟨s.name, type, s.bits, []⟩ := by
  have hname : Text.upper "NAME" = "NAME" := by decide +kernel
  have htype : Text.upper "TYPE" = "TYPE" := by decide +kernel
  have hbits : Text.upper "BITS" = "BITS" := by decide +kernel
  have h1 : attribute? (s.attributesIn σ) "NAME" = some s.name := by
    simp [StatedField.attributesIn, attribute?_cons, hname]
  have h2 : attribute? (s.attributesIn σ) "TYPE" = some s.typeName := by
    simp [StatedField.attributesIn, attribute?_cons, hname, htype]
  have h3 : attribute? (s.attributesIn σ) "BITS" = s.bits := by
    cases hb : s.bits with
    | none => simp [StatedField.attributesIn, hname, htype, hb, attribute?]
    | some bits => simp [StatedField.attributesIn, attribute?_cons, hname, htype, hbits, hb]
  simp only [openFieldOf, h1, h2, h3]
  cases readType s.typeName <;> rfl

theorem messageOf_messageAttributesIn (σ : Spelling) (kind : Kind) (subject : String) :
    messageOf (messageAttributesIn σ kind subject) = startOf kind subject := by
  have hsubject : Text.upper "SUBJECT" = "SUBJECT" := by decide +kernel
  have hkind : Text.upper "KIND" = "KIND" := by decide +kernel
  have h1 : attribute? (messageAttributesIn σ kind subject) "SUBJECT" = some subject := by
    simp [messageAttributesIn, attribute?_cons, hsubject]
  have h2 : attribute? (messageAttributesIn σ kind subject) "KIND" = some (σ.word kind.name) := by
    simp [messageAttributesIn, attribute?_cons, hsubject, hkind]
  simp only [messageOf, h1, h2, Option.elim_some, Kind.ofName_word, startOf]
  split
  · contradiction
  · rename_i he
    cases he
    rfl
  · rename_i s hne he
    cases he
    rw [if_neg hne]
    rfl

/-! ## The reading goes on -/

/-- Read on in a text, inside the elements of some names. -/
def readFrom (opened : List (List Char)) (r : XmlReading) (cs : List Char) :
    Except Error XmlReading :=
  (Xml.matched opened (Xml.lexemes cs)).foldlM step r

section

variable {opened : List (List Char)} {r : XmlReading} {cs rest : List Char}

theorem readFrom_text {text : List Char} (h : Xml.lexemes cs = .text text :: Xml.lexemes rest) :
    readFrom opened r cs = (r.step (.text text)).bind fun r => readFrom opened r rest := by
  rw [readFrom, h]
  rfl

theorem readFrom_start {name attributes : List Char}
    (h : Xml.lexemes cs = .start name attributes :: Xml.lexemes rest) :
    readFrom opened r cs =
      (r.element name attributes false).bind fun r => readFrom (name :: opened) r rest := by
  rw [readFrom, h]
  rfl

theorem readFrom_close {name : List Char} (h : Xml.lexemes cs = .close name :: Xml.lexemes rest) :
    readFrom (name :: opened) r cs = (r.close name).bind fun r => readFrom opened r rest := by
  rw [readFrom, h, Xml.matched, if_pos rfl]
  rfl

end

theorem readFrom_blank (opened : List (List Char)) (message : Option Message) (fields : List Field)
    {blank rest : List Char} (hne : blank ≠ []) (h : ∀ c ∈ blank, c ≠ '<' ∧ c ≠ '&') :
    readFrom opened ⟨message, none, fields⟩ (blank ++ '<' :: rest) =
      readFrom opened ⟨message, none, fields⟩ ('<' :: rest) := by
  have hplain := Xml.unescape_eq_self fun c hc => (h c hc).2
  rw [readFrom_text (Xml.lexemes_text hne fun c hc => (h c hc).1)]
  simp only [step, hplain]
  rfl

theorem readFrom_fieldText (opened : List (List Char)) (message : Option Message)
    (fields : List Field) (f : OpenField) (text rest : List Char) :
    readFrom opened ⟨message, some f, fields⟩ (Xml.escape text ++ '<' :: rest) =
      readFrom opened ⟨message, some { f with text := f.text ++ text }, fields⟩ ('<' :: rest) := by
  -- an empty text is no token at all
  by_cases hempty : text = []
  · rw [hempty, List.append_nil]
    rfl
  · have hne : Xml.escape text ≠ [] := fun h => hempty (Xml.escape_eq_nil_iff.mp h)
    rw [readFrom_text (Xml.lexemes_text hne fun c hc => (Xml.mem_escape hc).1)]
    simp only [step, Xml.unescape_escape]
    rfl

/-! ## Fields are read -/

section

variable (σ : Spelling) (opened : List (List Char)) (message : Option Message)
  (fields : List Field)

theorem element_statedIn (s : StatedField) :
    (⟨message, none, fields⟩ : XmlReading).element (σ.word "FIELD").toList
        ((s.attributesIn σ).flatMap Xml.attributeText) false =
      (readType s.typeName).map fun type => ⟨message, some ⟨s.name, type, s.bits, []⟩, fields⟩ := by
  rw [element_of_field (isFieldName_fieldIn σ) rfl, readTag, attributesIn_written,
    Option.elim_some, openFieldOf_attributesIn]
  cases readType s.typeName <;> rfl

theorem read_eq_finish (s : StatedField) : s.read =
    (readType s.typeName).bind fun type => finish ⟨s.name, type, s.bits, s.text.toList⟩ := by
  unfold StatedField.read finish
  simp only [String.ofList_toList]
  rfl

/-- Behind its tag, a stated field is open unless its type is bad. -/
theorem readFrom_fieldTagIn (s : StatedField) (rest : List Char) :
    readFrom opened ⟨message, none, fields⟩ (s.fieldTagIn σ ++ '>' :: rest) =
      (readType s.typeName).bind fun type => readFrom ((σ.word "FIELD").toList :: opened)
        ⟨message, some ⟨s.name, type, s.bits, []⟩, fields⟩ rest := by
  have hne : s.attributesIn σ ≠ [] := List.cons_ne_nil _ _
  have hplain := plain_attributesIn σ s
  rw [StatedField.fieldTagIn, readFrom_start (Xml.lexemes_start (isTagName_fieldIn σ) hne hplain),
    element_statedIn]
  cases readType s.typeName <;> rfl

/-- Behind the element of a stated field, the field has been read or its fault is reported. -/
theorem readFrom_statedIn (s : StatedField) (rest : List Char) :
    readFrom opened ⟨message, none, fields⟩ (s.xmlCharsIn σ ++ rest) =
      s.read.bind fun f => readFrom opened ⟨message, none, fields ++ [f]⟩ rest := by
  have htext : s.xmlCharsIn σ ++ rest = s.fieldTagIn σ ++ '>' ::
      (Xml.escape s.text.toList ++ '<' :: ('/' :: (σ.word "FIELD").toList ++ '>' :: rest)) := by
    simp only [StatedField.xmlCharsIn, List.append_assoc, List.cons_append, List.nil_append]
  rw [htext, readFrom_fieldTagIn, read_eq_finish]
  cases readType s.typeName with
  | error e => rfl
  | ok type =>
    show readFrom _ _ _ = (finish ⟨s.name, type, s.bits, s.text.toList⟩).bind _
    rw [readFrom_fieldText, readFrom_close (Xml.lexemes_close (isTagName_fieldIn σ).1),
      close_of_field (isFieldName_fieldIn σ), List.nil_append]
    cases finish ⟨s.name, type, s.bits, s.text.toList⟩ <;> rfl

/-- Behind the elements of some fields, these fields have been read. -/
theorem readFrom_fieldsIn (τ : Field → Spelling) (fs : List Field) (rest : List Char) :
    readFrom opened ⟨message, none, fields⟩
        (fs.flatMap (fun f => '\n' :: '\t' :: xmlFieldCharsIn (τ f) f) ++ rest) =
      readFrom opened ⟨message, none, fields ++ fs⟩ rest := by
  induction fs generalizing fields with
  | nil => simp
  | cons f fs ih =>
    have hblank : ∀ c ∈ ['\n', '\t'], c ≠ '<' ∧ c ≠ '&' := by simp
    obtain ⟨tail, htail⟩ : ∃ tail, xmlFieldCharsIn (τ f) f = '<' :: tail := ⟨_, rfl⟩
    have hsplit : (f :: fs).flatMap (fun f => '\n' :: '\t' :: xmlFieldCharsIn (τ f) f) ++ rest =
        ['\n', '\t'] ++ '<' :: (tail ++
          (fs.flatMap (fun f => '\n' :: '\t' :: xmlFieldCharsIn (τ f) f) ++ rest)) := by
      simp [htail]
    rw [hsplit, readFrom_blank _ _ _ (by simp) hblank, ← List.cons_append, ← htail,
      xmlFieldCharsIn, readFrom_statedIn, read_statedIn]
    show readFrom _ _ _ = _
    rw [ih (fields ++ [f]), List.append_assoc]
    rfl

end

/-! ## Messages are read -/

section

variable (σ : Spelling)

theorem element_messageIn (kind : Kind) (subject : String) (isEmpty : Bool) :
    empty.element (σ.word "MESSAGE").toList
        ((messageAttributesIn σ kind subject).flatMap Xml.attributeText) isEmpty =
      (startOf kind subject).map fun start => ⟨some start, none, []⟩ := by
  rw [element_of_message (isMessageName_messageIn σ) rfl, readTag, messageAttributesIn_written,
    Option.elim_some, messageOf_messageAttributesIn]
  cases startOf kind subject <;> rfl

/-- Behind its tag, a message has begun unless its subject is bad. -/
theorem readFrom_messageTagIn (kind : Kind) (subject : String) (rest : List Char) :
    readFrom [] empty (messageTagIn σ kind subject ++ '>' :: rest) =
      (startOf kind subject).bind fun start =>
        readFrom [(σ.word "MESSAGE").toList] ⟨some start, none, []⟩ rest := by
  have hne : messageAttributesIn σ kind subject ≠ [] := List.cons_ne_nil _ _
  have hplain := plain_messageAttributesIn σ kind subject
  rw [messageTagIn, readFrom_start (Xml.lexemes_start (isTagName_messageIn σ) hne hplain),
    element_messageIn]
  cases startOf kind subject <;> rfl

theorem readFrom_emptyMessageIn (kind : Kind) (subject : String) :
    readFrom [] empty (messageTagIn σ kind subject ++ ['/', '>']) =
      (startOf kind subject).map fun start => ⟨some start, none, []⟩ := by
  have hne : messageAttributesIn σ kind subject ≠ [] := List.cons_ne_nil _ _
  have hplain := plain_messageAttributesIn σ kind subject
  rw [messageTagIn, readFrom, Xml.lexemes_empty (isTagName_messageIn σ) hne hplain, Xml.lexemes]
  show ((empty.element _ _ true).bind fun r => .ok r) = _
  rw [element_messageIn]
  cases startOf kind subject <;> rfl

/-- A text that begins with an angle has no byte order mark. -/
theorem ofText_angle (cs : List Char) :
    ofText (String.ofList ('<' :: cs)) = (readFrom [] empty ('<' :: cs)).bind fun r =>
      if r.openField.isSome then .error .unterminatedField else .ok r := by
  rw [ofText, String.toList_ofList]
  rfl

theorem ofText_xmlMessageCharsIn (τ : Field → Spelling) (m : Message) (subject : String) :
    ofText (String.ofList (xmlMessageCharsIn σ τ m subject)) =
      (startOf m.kind subject).map fun start => ⟨some start, none, m.fields.toList⟩ := by
  obtain ⟨tail, htail⟩ : ∃ tail, xmlMessageCharsIn σ τ m subject = '<' :: tail := ⟨_, rfl⟩
  rw [htail, ofText_angle, ← htail, xmlMessageCharsIn]
  split
  · rename_i hnil
    rw [readFrom_emptyMessageIn, hnil]
    cases startOf m.kind subject <;> rfl
  · rw [readFrom_messageTagIn]
    cases startOf m.kind subject with
    | error e => rfl
    | ok start =>
      have hother : ¬isFieldName (σ.word "MESSAGE").toList = true :=
        Bool.eq_false_iff.mp (isFieldName_of_isMessageName (isMessageName_messageIn σ))
      show (readFrom [(σ.word "MESSAGE").toList] ⟨some start, none, []⟩ _).bind _ = _
      rw [List.append_assoc, readFrom_fieldsIn, readFrom_blank _ _ _ (by simp) (by simp),
        readFrom_close (Xml.lexemes_close (isTagName_messageIn σ).1), close_of_other hother]
      show (readFrom [] _ []).bind _ = _
      rw [readFrom, Xml.lexemes]
      rfl

end

end XmlReading

end Wire

end BusCompliance
