import BusCompliance.Proofs.Wire.JsonRoundTrip
import BusCompliance.Proofs.Wire.XmlRoundTrip

/-!
# Letter case does not matter

A document whose names of elements, attributes and members, types and kind stand in any letter case
is read as the message it was written for. Escaping leaves letters alone, so such a document differs
from the canonical one in the case of letters only.
-/

namespace BusCompliance.Wire

open Text (Spelling)

/-! ## Recased documents -/

section

variable (σ : Spelling) (τ : Field → Spelling) (m : Message)

/-- The XML document of a message, the words of its MESSAGE element in one spelling and those of each
field in another. Only the name of an element stands in it twice, at its start and at its end, so a
spelling chooses for every other place on its own. -/
def messageToXmlIn : String := String.ofList (xmlMessageCharsIn σ τ m (m.subject.getD ""))

/-- The JSON document of a message, the words of its own object in one spelling and those of each
field in another. No object has a word twice. -/
def messageToJsonIn : String := String.ofList (jsonMessageIn σ τ m (m.subject.getD "")).render

end

theorem messageToXmlIn_plain (m : Message) :
    messageToXmlIn .plain (fun _ => .plain) m = messageToXml m := by
  rw [messageToXmlIn, xmlMessageCharsIn_plain]
  rfl

theorem messageToJsonIn_plain (m : Message) :
    messageToJsonIn .plain (fun _ => .plain) m = messageToJson m := by
  rw [messageToJsonIn, jsonMessageIn_plain]
  rfl

/-! ## Escaped words -/

section

variable (σ : Spelling)

theorem xmlEscapeChar_of_isAlpha {c : Char} (h : c.isAlpha = true) : Xml.escapeChar c = [c] := by
  unfold Xml.escapeChar
  simp [Text.ne_of_isAlpha h]

theorem jsonEscapeChar_of_isAlpha {c : Char} (h : c.isAlpha = true) : Json.escapeChar c = [c] := by
  have hcontrol : ¬c.toNat < 0x20 := by
    rw [Text.isAlpha_iff] at h
    omega
  unfold Json.escapeChar
  simp [Text.ne_of_isAlpha h, hcontrol]

@[simp] theorem map_toUpper_xmlEscape_word (w : String) :
    (Xml.escape (σ.word w).toList).map Char.toUpper =
      (Xml.escape w.toList).map Char.toUpper :=
  Text.map_toUpper_flatMap (fun _ => xmlEscapeChar_of_isAlpha) (σ.map_toUpper_word w)

@[simp] theorem map_toUpper_quote_word (w : String) :
    (Json.quote (σ.word w)).map Char.toUpper = (Json.quote w).map Char.toUpper := by
  have h := Text.map_toUpper_flatMap (fun _ => jsonEscapeChar_of_isAlpha) (σ.map_toUpper_word w)
  simp only [Json.quote, List.map_append, List.map_cons, h]

end

/-! ## Letters that are written -/

section

variable (σ : Spelling) (τ : Field → Spelling)

theorem map_toUpper_xmlFieldCharsIn (f : Field) :
    (xmlFieldCharsIn σ f).map Char.toUpper = (xmlFieldChars f).map Char.toUpper := by
  rw [← xmlFieldCharsIn_plain]
  simp only [xmlFieldCharsIn, StatedField.xmlCharsIn, StatedField.fieldTagIn,
    StatedField.attributesIn, statedIn, Xml.tagText]
  cases (stated f).bits <;> simp [Xml.attributeText]

theorem map_toUpper_xmlMessageCharsIn (m : Message) (subject : String) :
    (xmlMessageCharsIn σ τ m subject).map Char.toUpper =
      (xmlMessageChars m subject).map Char.toUpper := by
  rw [← xmlMessageCharsIn_plain]
  simp only [xmlMessageCharsIn, messageTagIn, messageAttributesIn, Xml.tagText]
  split <;> simp [Xml.attributeText, map_toUpper_xmlFieldCharsIn, List.map_flatMap]

theorem map_toUpper_render_jsonFieldIn (f : Field) :
    (jsonFieldIn σ f).render.map Char.toUpper = (jsonField f).render.map Char.toUpper := by
  have hplain : jsonField f = jsonFieldIn .plain f := rfl
  rw [hplain]
  simp only [jsonFieldIn, StatedField.jsonIn, StatedField.membersIn, statedIn]
  cases (stated f).bits <;> simp [Json.Value.render, Json.renderMembers]

theorem map_toUpper_renderItems (fs : List Field) :
    (Json.renderItems (fs.map fun f => jsonFieldIn (τ f) f)).map Char.toUpper =
      (Json.renderItems (fs.map jsonField)).map Char.toUpper := by
  induction fs with
  | nil => rfl
  | cons f fs ih =>
    cases fs with
    | nil => simp [Json.renderItems, map_toUpper_render_jsonFieldIn]
    | cons g fs =>
      simp only [List.map_cons, Json.renderItems, List.map_append,
        map_toUpper_render_jsonFieldIn] at ih ⊢
      rw [ih]

theorem map_toUpper_render_jsonMessageIn (m : Message) (subject : String) :
    (jsonMessageIn σ τ m subject).render.map Char.toUpper =
      (jsonMessage m subject).render.map Char.toUpper := by
  rw [jsonMessage_eq]
  simp only [jsonMessageIn, messageMembersIn, messageMembers]
  cases m.fields.toList with
  | nil => simp [Json.Value.render, Json.renderMembers]
  | cons f fs =>
    have hitems := map_toUpper_renderItems τ (f :: fs)
    simp only [List.map_cons] at hitems
    simp [Json.Value.render, Json.renderMembers, hitems]

end

/-! ## Reading -/

/-- A recased document differs from the canonical one in the case of letters only, and it is read as
the message without its schema, which is written as the canonical document again. -/
theorem messageOf_recased (σ : Spelling) (τ : Field → Spelling) (m : Message) :
    (Text.sameLetters (messageToXmlIn σ τ m) (messageToXml m) = true ∧
      (messageOfXml (messageToXmlIn σ τ m)).outcome = .ok m.unbound ∧
      (messageOfXml (messageToXmlIn σ τ m)).outcome.map messageToXml = .ok (messageToXml m)) ∧
    (Text.sameLetters (messageToJsonIn σ τ m) (messageToJson m) = true ∧
      messageOfJson (messageToJsonIn σ τ m) = .ok m.unbound ∧
      (messageOfJson (messageToJsonIn σ τ m)).map messageToJson = .ok (messageToJson m)) := by
  have hxml : (messageOfXml (messageToXmlIn σ τ m)).outcome = .ok m.unbound := by
    rw [← Message.underSubject_own]
    exact outcome_messageOfXml_of_startOf (XmlReading.ofText_xmlMessageCharsIn σ τ m _)
  have hjson : messageOfJson (messageToJsonIn σ τ m) = .ok m.unbound := by
    rw [messageToJsonIn, messageOfJson_jsonMessageIn, Message.underSubject_own]
  refine ⟨⟨?_, hxml, ?_⟩, ?_, hjson, ?_⟩
  · simp [Text.sameLetters, messageToXmlIn, messageToXml, messageToXmlAs,
      map_toUpper_xmlMessageCharsIn]
  · rw [hxml]
    rfl
  · simp [Text.sameLetters, messageToJsonIn, messageToJson, messageToJsonAs,
      map_toUpper_render_jsonMessageIn]
  · rw [hjson]
    rfl

example : messageToXmlIn .small (fun _ => .small)
    ((Message.new .publish).add ⟨"OK", .bool true, rfl⟩) =
    "<message subject=\"\" kind=\"publish\">\n" ++
      "\t<field name=\"OK\" type=\"bool\">TRUE</field>\n</message>" := by
  decide +kernel

end BusCompliance.Wire
