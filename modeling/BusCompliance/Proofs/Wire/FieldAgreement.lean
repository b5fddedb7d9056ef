import BusCompliance.Proofs.Wire.JsonRoundTrip
import BusCompliance.Proofs.Wire.XmlRoundTrip

/-!
# Both formats read a field alike

The same texts for a field may stand in an XML element or in a JSON object, whatever characters they
hold and whether they amount to a field or not. Both readers come to the same: to `StatedField.read`.
-/

namespace BusCompliance.Wire

namespace StatedField

variable (s : StatedField)

def toXml : String := String.ofList s.xmlChars

def toJson : String := String.ofList s.json.render

theorem ofText_toXml :
    XmlReading.ofText s.toXml = s.read.map fun f => ⟨none, none, [f]⟩ := by
  obtain ⟨tail, htail⟩ : ∃ tail, s.xmlChars = '<' :: tail := ⟨_, s.xmlChars_eq⟩
  have htokens : Xml.tokens s.toXml.toList = Xml.matched [] (Xml.lexemes s.xmlChars) := by
    rw [toXml, String.toList_ofList, htail]
    rfl
  have hrun : (Xml.tokens s.toXml.toList).foldlM XmlReading.step XmlReading.empty =
      s.read.map fun f => ⟨none, none, [f]⟩ := by
    rw [htokens]
    show XmlReading.readFrom [] ⟨none, none, []⟩ s.xmlChars = _
    rw [← List.append_nil s.xmlChars, XmlReading.readFrom_stated]
    cases s.read with
    | error e => rfl
    | ok f =>
      show XmlReading.readFrom [] _ [] = _
      rw [XmlReading.readFrom, Xml.lexemes]
      rfl
  rw [XmlReading.ofText, hrun]
  cases s.read <;> rfl

theorem fieldOfXml_toXml : fieldOfXml s.toXml = s.read := by
  rw [fieldOfXml, s.ofText_toXml]
  cases s.read <;> rfl

theorem fieldOfJson_toJson : fieldOfJson s.toJson = s.read := by
  have hfits : s.json.Fits Json.depthLimit := s.fits_json 126
  rw [fieldOfJson, jsonDocument, toJson, String.toList_ofList, Json.parse?_render hfits]
  exact fieldOfValue_json s

end StatedField

/-- The XML element and the JSON object of the same texts are read as the same field, or refused with
the same error: that of the type, else of the value, else of the name. -/
theorem fieldOfXml_eq_fieldOfJson (s : StatedField) :
    fieldOfXml s.toXml = fieldOfJson s.toJson ∧ fieldOfJson s.toJson = s.read :=
  ⟨s.fieldOfXml_toXml.trans s.fieldOfJson_toJson.symm, s.fieldOfJson_toJson⟩

end BusCompliance.Wire
