import BusCompliance.Proofs.Wire.XmlSpelling
import BusCompliance.Wire.Format

/-!
# Messages survive XML

A message written as XML is read back as the same message, its floats bit for bit. What is written
is the document in the plain spelling, so its reading is that of documents in any spelling.
-/

namespace BusCompliance

namespace Wire

/-! ## What is written -/

namespace StatedField

def attributes (s : StatedField) : List Xml.Attribute :=
  ⟨"NAME", s.name⟩ :: ⟨"TYPE", s.typeName⟩ :: s.bits.elim [] fun bits => [⟨"BITS", bits⟩]

/-- The element that states a field. -/
def xmlChars (s : StatedField) : List Char :=
  "<FIELD".toList ++ xmlAttribute "NAME" s.name ++ xmlAttribute "TYPE" s.typeName ++
    (s.bits.elim [] (xmlAttribute "BITS")) ++ '>' ::
    Xml.escape s.text.toList ++ "</FIELD>".toList

end StatedField

def messageAttributes (kind : Kind) (subject : String) : List Xml.Attribute :=
  [⟨"SUBJECT", subject⟩, ⟨"KIND", kind.name⟩]

theorem xmlAttribute_eq (name value : String) :
    xmlAttribute name value = Xml.attributeText ⟨name, value⟩ := by
  simp [xmlAttribute, Xml.attributeText]

theorem xmlFieldChars_eq (f : Field) : xmlFieldChars f = (stated f).xmlChars := rfl

theorem isTagName_field : Xml.IsTagName "FIELD".toList := isTagName_fieldIn .plain

theorem isTagName_message : Xml.IsTagName "MESSAGE".toList := isTagName_messageIn .plain

namespace StatedField

variable (s : StatedField)

theorem xmlChars_eq : s.xmlChars = '<' :: Xml.tagText "FIELD".toList s.attributes ++
    '>' :: (Xml.escape s.text.toList ++ '<' :: '/' :: "FIELD".toList ++ ['>']) := by
  have hopen : "<FIELD".toList = '<' :: "FIELD".toList := rfl
  have hclose : "</FIELD>".toList = '<' :: '/' :: "FIELD".toList ++ ['>'] := rfl
  have hbits : s.bits.elim [] (xmlAttribute "BITS") =
      (s.bits.elim [] fun bits => [⟨"BITS", bits⟩]).flatMap Xml.attributeText := by
    cases s.bits with
    | none => rfl
    | some bits => simp only [Option.elim_some, xmlAttribute_eq, List.flatMap_singleton]
  unfold xmlChars
  simp only [hopen, hclose, hbits, xmlAttribute_eq, attributes, Xml.tagText,
    List.flatMap_cons, List.append_assoc, List.cons_append]

theorem xmlCharsIn_plain : s.xmlCharsIn .plain = s.xmlChars := by
  rw [xmlChars_eq, List.append_assoc]
  rfl

theorem plain_attributes : ∀ a ∈ s.attributes, Xml.IsPlainName a.name.toList :=
  plain_attributesIn .plain s

end StatedField

theorem plain_messageAttributes (kind : Kind) (subject : String) :
    ∀ a ∈ messageAttributes kind subject, Xml.IsPlainName a.name.toList :=
  plain_messageAttributesIn .plain kind subject

theorem xmlFieldCharsIn_plain (f : Field) : xmlFieldCharsIn .plain f = xmlFieldChars f :=
  (stated f).xmlCharsIn_plain

theorem lines_eq (fs : List Field) :
    '\n' :: fs.flatMap (fun f => '\t' :: xmlFieldChars f ++ ['\n']) =
      fs.flatMap (fun f => '\n' :: '\t' :: xmlFieldChars f) ++ ['\n'] := by
  induction fs with
  | nil => rfl
  | cons f fs ih =>
    rw [List.flatMap_cons, List.flatMap_cons, List.append_assoc ('\n' :: '\t' :: xmlFieldChars f),
      ← ih]
    simp

/-- A document is its MESSAGE tag, then either the slash of an empty element or the fields on
lines of their own. -/
theorem xmlMessageChars_eq (m : Message) (subject : String) :
    xmlMessageChars m subject =
      '<' :: Xml.tagText "MESSAGE".toList (messageAttributes m.kind subject) ++
        if m.fields.toList = [] then ['/', '>']
        else '>' :: (m.fields.toList.flatMap (fun f => '\n' :: '\t' :: xmlFieldChars f) ++
          ['\n'] ++ '<' :: ('/' :: "MESSAGE".toList ++ '>' :: [])) := by
  have hhead : "<MESSAGE".toList ++ xmlAttribute "SUBJECT" subject ++
      xmlAttribute "KIND" m.kind.name =
        '<' :: Xml.tagText "MESSAGE".toList (messageAttributes m.kind subject) := by
    have hopen : "<MESSAGE".toList = '<' :: "MESSAGE".toList := rfl
    simp only [hopen, xmlAttribute_eq, Xml.tagText, messageAttributes, List.flatMap_cons,
      List.flatMap_nil, List.append_nil, List.append_assoc, List.cons_append]
  have hend : "</MESSAGE>".toList = '<' :: ('/' :: "MESSAGE".toList ++ '>' :: []) := rfl
  have hslash : "/>".toList = ['/', '>'] := rfl
  have hline : ">\n".toList = ['>', '\n'] := rfl
  unfold xmlMessageChars
  by_cases hnil : m.fields.toList = []
  · simp only [hhead, hslash, hnil, List.isEmpty_nil, if_true]
  · have hisEmpty : m.fields.toList.isEmpty = false := by simpa using hnil
    simp only [hhead, hend, hline, hisEmpty, if_neg hnil, Bool.false_eq_true, if_false]
    rw [← lines_eq]
    simp only [List.append_assoc, List.cons_append, List.nil_append]

theorem xmlMessageCharsIn_plain (m : Message) (subject : String) :
    xmlMessageCharsIn .plain (fun _ => .plain) m subject = xmlMessageChars m subject := by
  rw [xmlMessageChars_eq]
  simp only [xmlMessageCharsIn, xmlFieldCharsIn_plain]
  rfl

/-! ## It is read -/

namespace XmlReading

section

variable (opened : List (List Char)) (message : Option Message) (fields : List Field)

/-- Behind its tag, a stated field is open unless its type is bad. -/
theorem readFrom_fieldTag (s : StatedField) (rest : List Char) :
    readFrom opened ⟨message, none, fields⟩
        ('<' :: Xml.tagText "FIELD".toList s.attributes ++ '>' :: rest) =
      (readType s.typeName).bind fun type => readFrom ("FIELD".toList :: opened)
        ⟨message, some ⟨s.name, type, s.bits, []⟩, fields⟩ rest :=
  readFrom_fieldTagIn .plain opened message fields s rest

/-- Behind the element of a stated field, the field has been read or its fault is reported. -/
theorem readFrom_stated (s : StatedField) (rest : List Char) :
    readFrom opened ⟨message, none, fields⟩ (s.xmlChars ++ rest) =
      s.read.bind fun f => readFrom opened ⟨message, none, fields ++ [f]⟩ rest := by
  rw [← s.xmlCharsIn_plain, readFrom_statedIn]

/-- Behind the elements of some fields, these fields have been read. -/
theorem readFrom_fields (fs : List Field) (rest : List Char) :
    readFrom opened ⟨message, none, fields⟩
        (fs.flatMap (fun f => '\n' :: '\t' :: xmlFieldChars f) ++ rest) =
      readFrom opened ⟨message, none, fields ++ fs⟩ rest := by
  have h := readFrom_fieldsIn opened message fields (fun _ => .plain) fs rest
  simpa only [xmlFieldCharsIn_plain] using h

end

/-- Behind its tag, a message has begun unless its subject is bad. -/
theorem readFrom_messageTag (kind : Kind) (subject : String) (rest : List Char) :
    readFrom [] empty ('<' :: Xml.tagText "MESSAGE".toList (messageAttributes kind subject) ++
        '>' :: rest) =
      (startOf kind subject).bind fun start =>
        readFrom ["MESSAGE".toList] ⟨some start, none, []⟩ rest :=
  readFrom_messageTagIn .plain kind subject rest

theorem ofText_messageToXmlAs (m : Message) (subject : String) :
    ofText (messageToXmlAs m subject) =
      (startOf m.kind subject).map fun start => ⟨some start, none, m.fields.toList⟩ := by
  rw [messageToXmlAs, ← xmlMessageCharsIn_plain, ofText_xmlMessageCharsIn]

end XmlReading

/-! ## Messages -/

theorem outcome_addReported (m : Message) (f : Field) :
    (addReported m f).outcome = .ok (m.add f) := by
  unfold addReported
  simp only
  split
  · rw [Action.outcome_bind, Action.outcome_log]
    rfl
  · rfl

theorem outcome_foldlM_addReported (fs : List Field) (m : Message) :
    (fs.foldlM addReported m).outcome = .ok (m.addAll fs) := by
  induction fs generalizing m with
  | nil => rfl
  | cons f fs ih =>
    rw [List.foldlM_cons, Action.outcome_bind, outcome_addReported]
    exact ih (m.add f)

theorem detect?_messageToXmlAs (m : Message) (subject : String) :
    Format.detect? (messageToXmlAs m subject) = some .xml := by
  have hblank : Text.isBlank '<' = false := by decide
  rw [Format.detect?, messageToXmlAs, String.toList_ofList, xmlMessageChars_eq, List.cons_append,
    Text.trimStartChars_of_head hblank]
  rfl

/-- A document is read as the message of its MESSAGE element with the fields of all its FIELD
elements put in. -/
theorem outcome_messageOfXml_eq_ok_iff {text : String} {m : Message} :
    (messageOfXml text).outcome = .ok m ↔ ∃ r start, XmlReading.ofText text = .ok r ∧
      r.message = some start ∧ m = start.addAll r.fields := by
  rw [messageOfXml, Action.outcome_bind, Action.outcome_ofExcept, bind_eq_ok_iff]
  constructor
  · rintro ⟨r, hr, h⟩
    split at h
    · cases h
    · rename_i start hstart
      rw [outcome_foldlM_addReported] at h
      exact ⟨r, start, hr, hstart, (Except.ok.inj h).symm⟩
  · rintro ⟨r, start, hr, hstart, rfl⟩
    refine ⟨r, hr, ?_⟩
    rw [hstart]
    exact outcome_foldlM_addReported r.fields start

/-- A document that begins a message and states its fields is read as that message. -/
theorem outcome_messageOfXml_of_startOf {text subject : String} {m : Message}
    (h : XmlReading.ofText text =
      (startOf m.kind subject).map fun start => ⟨some start, none, m.fields.toList⟩) :
    (messageOfXml text).outcome = m.underSubject subject := by
  rw [messageOfXml, Action.outcome_bind, Action.outcome_ofExcept, h, ← startOf_addAll]
  cases startOf m.kind subject with
  | error e => rfl
  | ok start => exact outcome_foldlM_addReported m.fields.toList start

/-- A message written as XML under any subject reads back as that message under the subject. -/
theorem messageOfText_messageToXmlAs (m : Message) (subject : String) :
    (messageOfText (messageToXmlAs m subject)).outcome = m.underSubject subject := by
  rw [messageOfText, detect?_messageToXmlAs]
  exact outcome_messageOfXml_of_startOf (XmlReading.ofText_messageToXmlAs m subject)

/-- XML round trip: a message comes back with its kind, its subject and all its fields, and without
its schema. -/
theorem messageOfText_messageToXml (m : Message) :
    (messageOfText (messageToXml m)).outcome = .ok m.unbound := by
  rw [messageToXml, messageOfText_messageToXmlAs, Message.underSubject_own]

end Wire

end BusCompliance
