import BusCompliance.Proofs.Wire.XmlRoundTrip
import BusCompliance.Proofs.Xml.Truncated
import Mathlib.Data.List.TakeDrop

/-!
# Documents that break off

A document may break off between two fields, and then it is read as a message that has the fields
up to there. Wherever else it breaks off before its last field it is refused.
-/

namespace BusCompliance

/-- The message with no more than its first fields. -/
def Message.firstFields (m : Message) (k : Nat) : Message :=
  { m with fields := ⟨m.fields.toList.take k, m.fields.sorted.sublist (List.take_sublist k _)⟩ }

namespace Wire

def fieldLine (f : Field) : List Char := '\n' :: '\t' :: xmlFieldChars f

/-- Fields on their lines and the end of their message. -/
def bodyOf (fs : List Field) : List Char :=
  fs.flatMap fieldLine ++ (['\n'] ++ '<' :: '/' :: ("MESSAGE".toList ++ ['>']))

/-- What may be there of a document behind its MESSAGE tag, where it breaks off with a number of its
fields complete: nothing or blanks or the angle of the next tag behind these. The angle of a closing
tag may be lacking. -/
inductive IsCut : List Field → Nat → List Char → Prop
  | before {f : Field} {fs : List Field} {p : List Char} (hp : p <+: ['\n', '\t', '<']) :
      IsCut (f :: fs) 0 p
  | unclosed {f : Field} {fs : List Field} : IsCut (f :: fs) 1 (fieldLine f).dropLast
  | behind {f : Field} {fs : List Field} {k : Nat} {p : List Char} (h : IsCut fs k p) :
      IsCut (f :: fs) (k + 1) (fieldLine f ++ p)
  | last {p : List Char} (hp : p <+: ['\n', '<']) : IsCut [] 0 p
  | unclosedMessage : IsCut [] 0 (['\n'] ++ '<' :: '/' :: "MESSAGE".toList)

def messageTag (m : Message) : List Char :=
  '<' :: Xml.tagText "MESSAGE".toList (messageAttributes m.kind (m.subject.getD ""))

/-- What is there of the document of a message ends behind its MESSAGE tag, with a number of its
fields complete. -/
def BrokenOff (m : Message) (k : Nat) (p : List Char) : Prop :=
  m.fields.toList ≠ [] ∧ ∃ rest, IsCut m.fields.toList k rest ∧ p = messageTag m ++ '>' :: rest

theorem messageToXml_toList (m : Message) : (messageToXml m).toList =
    if m.fields.toList = [] then messageTag m ++ ['/', '>']
    else messageTag m ++ '>' :: bodyOf m.fields.toList := by
  rw [messageToXml, messageToXmlAs, String.toList_ofList, xmlMessageChars_eq]
  split
  · rfl
  · rw [bodyOf, ← List.append_assoc]
    rfl

theorem startOf_own (m : Message) : ∃ start, startOf m.kind (m.subject.getD "") = .ok start ∧
    start.addAll m.fields.toList = m.unbound := by
  have h := startOf_addAll m (m.subject.getD "")
  rw [Message.underSubject_own] at h
  exact map_eq_ok_iff.mp h

namespace XmlReading

def finished (r : XmlReading) : Except Error XmlReading :=
  if r.openField.isSome then .error .unterminatedField else .ok r

/-- Read to the end, inside the elements of some names. -/
def readRest (opened : List (List Char)) (r : XmlReading) (cs : List Char) :
    Except Error XmlReading :=
  (readFrom opened r cs).bind finished

variable {opened : List (List Char)} {r : XmlReading} {message : Option Message}
  {fields fs : List Field} {f : Field} {p : List Char} {k : Nat}

/-! ## Ends -/

theorem readFrom_nil : readFrom opened r [] = .ok r := by
  rw [readFrom, Xml.lexemes_nil]
  rfl

theorem readFrom_angle : readFrom opened r ['<'] = .ok r := by
  rw [readFrom, Xml.lexemes_angle]
  rfl

theorem readFrom_lastText {text : List Char} (hne : text ≠ []) (h : ∀ c ∈ text, c ≠ '<') :
    readFrom opened r text = r.step (.text text) := by
  rw [readFrom, Xml.lexemes_lastText hne h]
  cases hstep : r.step (.text text) <;> simp [Xml.matched, hstep]

theorem readFrom_gap (blank : List Char) (hne : blank ≠ []) (h : ∀ c ∈ blank, c ≠ '<' ∧ c ≠ '&')
    (hp : p <+: blank ++ ['<']) :
    readFrom opened ⟨message, none, fields⟩ p = .ok ⟨message, none, fields⟩ := by
  rcases Xml.prefix_append_cons_cases hp with hblank | ⟨q, rfl, hq⟩
  · by_cases hp : p = []
    · rw [hp, readFrom_nil]
    · rw [readFrom_lastText hp fun c hc => (h c (hblank.subset hc)).1, step,
        Xml.unescape_eq_self fun c hc => (h c (hblank.subset hc)).2]
      rfl
  · rw [List.prefix_nil.mp hq, readFrom_blank _ _ _ hne h, readFrom_angle]

/-- A text that breaks off leaves its field open. -/
theorem readRest_openField {o : OpenField} {text : List Char} (hp : p <+: Xml.escape text) :
    ∃ e, e.kind = .parse ∧ readRest opened ⟨message, some o, fields⟩ p = .error e := by
  unfold readRest
  by_cases hne : p = []
  · rw [hne, readFrom_nil]
    exact ⟨.unterminatedField, rfl, rfl⟩
  · rw [readFrom_lastText hne fun c hc => (Xml.mem_escape (hp.subset hc)).1, step]
    cases Xml.unescape p with
    | none => exact ⟨.malformedXml, rfl, rfl⟩
    | some text => exact ⟨.unterminatedField, rfl, rfl⟩

theorem readFrom_malformed (h : Xml.lexemes p = [.malformed]) :
    readFrom opened r p = .error .malformedXml := by
  rw [readFrom, h]
  rfl

theorem readFrom_brokenClose {name closed : List Char} (hn : Xml.IsPlainName name)
    (hp : closed <+: name) (hne : closed ≠ name) :
    readFrom (name :: opened) r ('<' :: '/' :: closed) = .error .malformedXml := by
  rw [readFrom, Xml.lexemes_brokenClose hn hp, Xml.matched, if_neg (Ne.symm hne)]
  rfl

theorem readFrom_unclosed {name : List Char} (hn : Xml.IsPlainName name) :
    readFrom (name :: opened) r ('<' :: '/' :: name) = r.close name := by
  rw [readFrom, Xml.lexemes_brokenClose hn (List.prefix_refl name), Xml.matched, if_pos rfl]
  cases hclose : r.close name <;> simp [Xml.matched, step, hclose]

/-! ## Lines -/

/-- What is read of a field before its text. -/
def openOf (f : Field) (text : List Char) : OpenField := ⟨f.name, f.type, f.value.bits?, text⟩

theorem finish_openOf (f : Field) : finish (openOf f f.value.wireText.toList) = .ok f := by
  have h := read_eq_finish (stated f)
  rw [read_stated, stated, readType_name] at h
  exact h.symm

theorem fieldLine_eq (f : Field) : fieldLine f =
    ['\n', '\t'] ++ '<' :: (Xml.tagText "FIELD".toList (stated f).attributes ++ '>' ::
      (Xml.escape f.value.wireText.toList ++ '<' :: '/' :: ("FIELD".toList ++ ['>']))) := by
  rw [fieldLine, xmlFieldChars_eq, StatedField.xmlChars_eq]
  simp [stated]

theorem readFrom_openLine (f : Field) (rest : List Char) :
    readFrom opened ⟨message, none, fields⟩
        (['\n', '\t'] ++ '<' :: (Xml.tagText "FIELD".toList (stated f).attributes ++ '>' :: rest)) =
      readFrom ("FIELD".toList :: opened) ⟨message, some (openOf f []), fields⟩ rest := by
  rw [readFrom_blank _ _ _ (by simp) (by simp), ← List.cons_append, readFrom_fieldTag, stated,
    readType_name]
  rfl

theorem readFrom_unclosedLine :
    readFrom opened ⟨message, none, fields⟩ (fieldLine f).dropLast =
      .ok ⟨message, none, fields ++ [f]⟩ := by
  have hline : (fieldLine f).dropLast =
      ['\n', '\t'] ++ '<' :: (Xml.tagText "FIELD".toList (stated f).attributes ++ '>' ::
        (Xml.escape f.value.wireText.toList ++ '<' :: ('/' :: "FIELD".toList))) := by
    rw [fieldLine_eq]
    simp only [← List.cons_append, ← List.append_assoc]
    rw [List.dropLast_concat]
  rw [hline, readFrom_openLine, readFrom_fieldText, readFrom_unclosed isTagName_field.1,
    close_of_field isFieldName_field]
  show (finish (openOf f f.value.wireText.toList)).map _ = _
  rw [finish_openOf]
  rfl

theorem ne_close_of_mem_fieldTag (f : Field) :
    ∀ c ∈ Xml.tagText "FIELD".toList (stated f).attributes, c ≠ '>' :=
  fun _ hc => Xml.ne_close_of_mem_tagText isTagName_field.1 (stated f).plain_attributes hc

/-- A line may break off before its tag or behind the name in its end. -/
theorem readRest_brokenLine (hp : p <+: fieldLine f) (hne : p ≠ fieldLine f) :
    p <+: ['\n', '\t', '<'] ∨ p = (fieldLine f).dropLast ∨
      ∃ e, e.kind = .parse ∧ readRest opened ⟨message, none, fields⟩ p = .error e := by
  rw [fieldLine_eq] at hp hne ⊢
  -- the line is taken apart from the left: blanks, tag, text and closing tag
  rcases Xml.prefix_append_cons_cases hp with hblank | ⟨q, rfl, hq⟩
  · exact .inl (hblank.trans (by simp))
  rcases Xml.prefix_append_cons_cases hq with htag | ⟨r, rfl, hr⟩
  · -- the tag breaks off
    by_cases hnil : q = []
    · rw [hnil]
      exact .inl (List.prefix_refl _)
    · refine .inr (.inr ⟨.malformedXml, rfl, ?_⟩)
      have hbroken := Xml.lexemes_brokenTag isTagName_field htag hnil (ne_close_of_mem_fieldTag f)
      rw [readRest, readFrom_blank _ _ _ (by simp) (by simp), readFrom_malformed hbroken]
      rfl
  rcases Xml.prefix_append_cons_cases hr with htext | ⟨t, rfl, ht⟩
  · -- the text breaks off
    refine .inr (.inr ?_)
    rw [readRest, readFrom_openLine]
    exact readRest_openField htext
  rw [readRest, readFrom_openLine, readFrom_fieldText]
  rcases List.prefix_cons_iff.mp ht with rfl | ⟨closed, rfl, hn⟩
  · refine .inr (.inr ⟨.unterminatedField, rfl, ?_⟩)
    rw [readFrom_angle]
    rfl
  rcases Xml.prefix_append_cons_cases hn with hclosed | ⟨u, rfl, hu⟩
  · by_cases hwhole : closed = "FIELD".toList
    · refine .inr (.inl ?_)
      rw [hwhole]
      simp only [← List.cons_append, ← List.append_assoc]
      rw [List.dropLast_concat]
    · refine .inr (.inr ⟨.malformedXml, rfl, ?_⟩)
      rw [readFrom_brokenClose isTagName_field.1 hclosed hwhole]
      rfl
  · rw [List.prefix_nil.mp hu] at hne
    exact absurd rfl hne

/-! ## Documents -/

theorem readFrom_line (rest : List Char) :
    readFrom opened ⟨message, none, fields⟩ (fieldLine f ++ rest) =
      readFrom opened ⟨message, none, fields ++ [f]⟩ rest := by
  have h := readFrom_fields opened message fields [f] rest
  simpa [fieldLine] using h

/-- Where a document breaks off between fields, the fields before have been read. -/
theorem readRest_cut (h : IsCut fs k p) :
    readRest ["MESSAGE".toList] ⟨message, none, fields⟩ p =
      .ok ⟨message, none, fields ++ fs.take k⟩ := by
  unfold readRest
  induction h generalizing fields with
  | before hp =>
    rw [readFrom_gap ['\n', '\t'] (by simp) (by simp) hp]
    simp [Except.bind, finished]
  | unclosed =>
    rw [readFrom_unclosedLine]
    simp [Except.bind, finished]
  | behind _ ih =>
    rw [readFrom_line, ih]
    simp
  | last hp =>
    rw [readFrom_gap ['\n'] (by simp) (by simp) hp]
    simp [Except.bind, finished]
  | unclosedMessage =>
    rw [readFrom_blank _ _ _ (by simp) (by simp), readFrom_unclosed isTagName_message.1,
      close_of_other not_isFieldName_message]
    simp [Except.bind, finished]

/-- Where a document breaks off elsewhere, it is refused. -/
theorem readRest_broken (message : Option Message) (fields : List Field) (hp : p <+: bodyOf fs)
    (hne : p ≠ bodyOf fs) :
    (∃ k, IsCut fs k p) ∨
      ∃ e, e.kind = .parse ∧
        readRest ["MESSAGE".toList] ⟨message, none, fields⟩ p = .error e := by
  induction fs generalizing p fields with
  | nil =>
    rw [bodyOf, List.flatMap_nil, List.nil_append] at hp hne
    rcases Xml.prefix_append_cons_cases hp with hblank | ⟨q, rfl, hq⟩
    · exact .inl ⟨0, .last (hblank.trans (by simp))⟩
    rcases List.prefix_cons_iff.mp hq with rfl | ⟨closed, rfl, hn⟩
    · exact .inl ⟨0, .last (by simp)⟩
    rcases Xml.prefix_append_cons_cases hn with hclosed | ⟨u, rfl, hu⟩
    · by_cases hwhole : closed = "MESSAGE".toList
      · rw [hwhole]
        exact .inl ⟨0, .unclosedMessage⟩
      · refine .inr ⟨.malformedXml, rfl, ?_⟩
        rw [readRest, readFrom_blank _ _ _ (by simp) (by simp),
          readFrom_brokenClose isTagName_message.1 hclosed hwhole]
        rfl
    · rw [List.prefix_nil.mp hu] at hne
      exact absurd rfl hne
  | cons f fs ih =>
    rw [bodyOf, List.flatMap_cons, List.append_assoc] at hp hne
    rcases Xml.prefix_append_cases hp with ⟨hfirst, hline⟩ | ⟨q, rfl, hq⟩
    · rcases readRest_brokenLine hfirst hline with hgap | rfl | herror
      · exact .inl ⟨0, .before hgap⟩
      · exact .inl ⟨1, .unclosed⟩
      · exact .inr herror
    · have hqne : q ≠ bodyOf fs := fun heq => hne (congrArg (fieldLine f ++ ·) heq)
      rcases ih (fields ++ [f]) hq hqne with ⟨k, hcut⟩ | ⟨e, he, herror⟩
      · exact .inl ⟨k + 1, .behind hcut⟩
      · refine .inr ⟨e, he, ?_⟩
        rw [readRest, readFrom_line]
        exact herror

/-! ## The tag of the message -/

theorem readRest_messageTag {m : Message} {start : Message}
    (h : startOf m.kind (m.subject.getD "") = .ok start) (rest : List Char) :
    readRest [] empty (messageTag m ++ '>' :: rest) =
      readRest ["MESSAGE".toList] ⟨some start, none, []⟩ rest := by
  rw [readRest, messageTag, readFrom_messageTag, h]
  rfl

theorem ofText_brokenOff {m start : Message} (h : BrokenOff m k p)
    (hstart : startOf m.kind (m.subject.getD "") = .ok start) :
    ofText (String.ofList p) = .ok ⟨some start, none, m.fields.toList.take k⟩ := by
  obtain ⟨-, rest, hcut, rfl⟩ := h
  exact (ofText_angle _).trans ((readRest_messageTag hstart rest).trans (readRest_cut hcut))

theorem ofText_brokenTag {m : Message} {tail : List Char} (hp : p <+: messageTag m ++ tail)
    (hend : ∀ c ∈ tail, c ≠ '>') :
    ofText (String.ofList p) = .ok empty ∨ ofText (String.ofList p) = .error .malformedXml := by
  rw [messageTag, List.cons_append] at hp
  rcases List.prefix_cons_iff.mp hp with rfl | ⟨q, rfl, hq⟩
  · exact .inl rfl
  rw [ofText_angle]
  by_cases hne : q = []
  · rw [hne, readFrom_angle]
    exact .inl rfl
  · rw [Xml.tagText, List.append_assoc] at hq
    have hclose : ∀ c ∈ "MESSAGE".toList ++
        ((messageAttributes m.kind (m.subject.getD "")).flatMap Xml.attributeText ++ tail),
        c ≠ '>' := by
      intro c hc
      rw [← List.append_assoc] at hc
      rcases List.mem_append.mp hc with hc | hc
      · exact Xml.ne_close_of_mem_tagText isTagName_message.1 (plain_messageAttributes _ _) hc
      · exact hend c hc
    rw [readFrom_malformed (Xml.lexemes_brokenTag isTagName_message hq hne hclose)]
    exact .inr rfl

theorem ofText_truncated {m : Message} (hp : p <+: (messageToXml m).toList)
    (hne : p ≠ (messageToXml m).toList) :
    (∃ k, BrokenOff m k p) ∨ ofText (String.ofList p) = .ok empty ∨
      ∃ e, e.kind = .parse ∧ ofText (String.ofList p) = .error e := by
  have hbroken (tail : List Char) (hp : p <+: messageTag m ++ tail) (hend : ∀ c ∈ tail, c ≠ '>') :
      ofText (String.ofList p) = .ok empty ∨
        ∃ e, e.kind = .parse ∧ ofText (String.ofList p) = .error e :=
    (ofText_brokenTag hp hend).imp_right fun h => ⟨_, rfl, h⟩
  rw [messageToXml_toList] at hp hne
  by_cases hfields : m.fields.toList = []
  · rw [if_pos hfields] at hp hne
    refine .inr (hbroken ['/'] ?_ (by simp))
    have hsplit : messageTag m ++ ['/', '>'] = (messageTag m ++ ['/']) ++ ['>'] := by simp
    rw [hsplit] at hp hne
    rcases Xml.prefix_append_cons_cases hp with hfirst | ⟨q, rfl, hq⟩
    · exact hfirst
    · rw [List.prefix_nil.mp hq] at hne
      exact absurd rfl hne
  · rw [if_neg hfields] at hp hne
    rcases Xml.prefix_append_cons_cases hp with hfirst | ⟨rest, rfl, hrest⟩
    · exact .inr (hbroken [] (by rwa [List.append_nil]) (by simp))
    · have hrestne : rest ≠ bodyOf m.fields.toList := fun heq => hne (by rw [heq])
      obtain ⟨start, hstart, -⟩ := startOf_own m
      rcases readRest_broken (some start) [] hrest hrestne with
        ⟨k, hcut⟩ | ⟨e, he, herror⟩
      · exact .inl ⟨k, hfields, rest, hcut, rfl⟩
      · refine .inr (.inr ⟨e, he, ?_⟩)
        exact (ofText_angle _).trans ((readRest_messageTag hstart rest).trans herror)

end XmlReading

/-! ## Messages -/

theorem unbound_firstFields_eq_iff {m : Message} {k : Nat} :
    (m.firstFields k).unbound = m.unbound ↔ m.fields.toList.length ≤ k := by
  rw [← List.take_eq_self_iff]
  constructor
  · intro h
    exact congrArg (fun q => q.fields.toList) h
  · intro h
    exact Message.ext_parts rfl rfl (Roster.ext h) rfl

theorem messageOfXml_brokenOff {m : Message} {k : Nat} {p : List Char} (h : BrokenOff m k p) :
    (messageOfXml (String.ofList p)).outcome = .ok (m.firstFields k).unbound := by
  obtain ⟨start, hstart, hread⟩ := startOf_own (m.firstFields k)
  exact outcome_messageOfXml_eq_ok_iff.mpr
    ⟨_, start, XmlReading.ofText_brokenOff h hstart, rfl, hread.symm⟩

theorem messageOfXml_truncated_cases {m : Message} {p : List Char}
    (hp : p <+: (messageToXml m).toList) (hne : p ≠ (messageToXml m).toList) :
    (∃ k, BrokenOff m k p) ∨
      ∃ e, e.kind = .parse ∧ (messageOfXml (String.ofList p)).outcome = .error e := by
  unfold messageOfXml
  rw [Action.outcome_bind, Action.outcome_ofExcept]
  rcases XmlReading.ofText_truncated hp hne with hcut | hnone | ⟨e, he, herror⟩
  · exact .inl hcut
  · rw [hnone]
    exact .inr ⟨.noMessageElement, rfl, rfl⟩
  · rw [herror]
    exact .inr ⟨e, he, rfl⟩

/-- A proper beginning of a document is accepted where it breaks off between fields or later, and
only there. What it is read as has the fields up to there, and the rest is lost without an error. -/
theorem messageOfXml_truncated {m : Message} {p : List Char} (hp : p <+: (messageToXml m).toList)
    (hne : p ≠ (messageToXml m).toList) :
    (∀ q, (messageOfXml (String.ofList p)).outcome = .ok q ↔
      ∃ k, BrokenOff m k p ∧ q = (m.firstFields k).unbound) ∧
    (∀ e, (messageOfXml (String.ofList p)).outcome = .error e → e.kind = .parse) ∧
    ∀ k, (m.firstFields k).unbound = m.unbound ↔ m.fields.toList.length ≤ k := by
  refine ⟨fun q => ⟨fun hq => ?_, ?_⟩, fun e he => ?_, fun k => unbound_firstFields_eq_iff⟩
  · rcases messageOfXml_truncated_cases hp hne with ⟨k, hcut⟩ | ⟨e, -, herror⟩
    · rw [messageOfXml_brokenOff hcut] at hq
      exact ⟨k, hcut, (Except.ok.inj hq).symm⟩
    · rw [herror] at hq
      cases hq
  · rintro ⟨k, hcut, rfl⟩
    exact messageOfXml_brokenOff hcut
  · rcases messageOfXml_truncated_cases hp hne with ⟨k, hcut⟩ | ⟨e', he', herror⟩
    · rw [messageOfXml_brokenOff hcut] at he
      cases he
    · rw [herror] at he
      cases he
      exact he'

def fieldA : Field := ⟨"A", .string "1", by decide⟩

def messageA : Message := (Message.new .publish).add fieldA

def messageAB : Message := messageA.add ⟨"B", .string "2", by decide⟩

/-- The document of the message with both fields, up to the first. -/
def cutAB : List Char := messageTag messageAB ++ '>' :: fieldLine fieldA

theorem cutAB_proper : cutAB <+: (messageToXml messageAB).toList ∧
    cutAB ≠ (messageToXml messageAB).toList := by
  decide +kernel

theorem brokenOff_cutAB : BrokenOff messageAB 1 cutAB := by
  have hfields : messageAB.fields.toList = [fieldA, ⟨"B", .string "2", by decide⟩] := by
    decide +kernel
  refine ⟨by decide +kernel, fieldLine fieldA ++ [], ?_, by rw [List.append_nil]; rfl⟩
  rw [hfields]
  exact .behind (.before List.nil_prefix)

/-- Cut behind its first field, the document is still read, and not as the whole message. -/
theorem messageOfXml_truncated_messageAB :
    cutAB <+: (messageToXml messageAB).toList ∧ cutAB ≠ (messageToXml messageAB).toList ∧
      (messageOfXml (String.ofList cutAB)).outcome = .ok (messageAB.firstFields 1).unbound ∧
      (messageAB.firstFields 1).unbound ≠ messageAB.unbound := by
  obtain ⟨hp, hne⟩ := cutAB_proper
  obtain ⟨haccepted, -, hwhole⟩ := messageOfXml_truncated hp hne
  refine ⟨hp, hne, (haccepted _).mpr ⟨1, brokenOff_cutAB, rfl⟩, fun h => ?_⟩
  exact absurd ((hwhole 1).mp h) (by decide +kernel)

/-- The field behind the cut is lost without an error. -/
theorem cutAB_read_as_messageA :
    cutAB <+: (messageToXml messageAB).toList ∧ cutAB ≠ (messageToXml messageAB).toList ∧
      (messageOfXml (String.ofList cutAB)).outcome = .ok messageA ∧
      messageA ≠ messageAB.unbound := by
  have hread : (messageAB.firstFields 1).unbound = messageA := by decide +kernel
  exact ⟨cutAB_proper.1, cutAB_proper.2, hread ▸ messageOfXml_brokenOff brokenOff_cutAB,
    by decide +kernel⟩

end Wire

end BusCompliance
