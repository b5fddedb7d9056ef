import BusCompliance.Proofs.Wire.XmlRoundTrip

/-!
# Where fields stand in a document

A document needs the tag of a message somewhere, once, and states the fields of all its FIELD
elements, whether these stand in the MESSAGE element, before it, behind it or around it.
-/

namespace BusCompliance.Wire

open Xml (Token)

/-! ## Elements -/

/-- An element with the names of the elements around it, the innermost first. -/
structure XmlElement where
  name : List Char
  attributes : List Char
  around : List (List Char)

/-- The elements that begin in a text, inside those of some names. -/
def xmlElementsIn (around : List (List Char)) : List Token → List XmlElement
  | [] => []
  | .start name attributes :: ts =>
    ⟨name, attributes, around⟩ :: xmlElementsIn (name :: around) ts
  | .empty name attributes :: ts => ⟨name, attributes, around⟩ :: xmlElementsIn around ts
  | .close _ :: ts => xmlElementsIn around.tail ts
  | _ :: ts => xmlElementsIn around ts

def xmlElements (text : String) : List XmlElement := xmlElementsIn [] (Xml.tokens text.toList)

namespace XmlElement

def isMessage (e : XmlElement) : Bool := isMessageName e.name

def isField (e : XmlElement) : Bool := isFieldName e.name

/-- A FIELD stands alone or right in a MESSAGE, a MESSAGE alone or right in a FIELD. -/
def Placed (e : XmlElement) : Prop :=
  (e.isField = true ∧ (e.around = [] ∨ ∃ n, e.around = [n] ∧ isMessageName n = true)) ∨
    (e.isMessage = true ∧ (e.around = [] ∨ ∃ n, e.around = [n] ∧ isFieldName n = true))

end XmlElement

/-! ## The tag of the message -/

section

variable {ts : List Token} {start : Message} {message : Option Message} {around : List (List Char)}

theorem foldlM_messageAfter_some_iff : ts.foldlM messageAfter (some start) = .ok message ↔
    (xmlElementsIn around ts).filter XmlElement.isMessage = [] ∧ message = some start := by
  induction ts generalizing around with
  | nil =>
    simp only [List.foldlM_nil, xmlElementsIn, List.filter_nil, true_and]
    exact ⟨fun h => (Except.ok.inj h).symm, fun h => congrArg Except.ok h.symm⟩
  | cons t ts ih =>
    rw [List.foldlM_cons]
    cases t with
    | start name attributes | empty name attributes =>
      rw [xmlElementsIn, messageAfter, List.filter_cons]
      by_cases hname : isMessageName name
      · simp [hname, XmlElement.isMessage, bind, Except.bind]
      · simp only [hname, XmlElement.isMessage, Bool.false_eq_true, if_false]
        exact ih
    | _ => exact ih

theorem foldlM_messageAfter_none_iff : ts.foldlM messageAfter none = .ok (some start) ↔
    ∃ e, (xmlElementsIn around ts).filter XmlElement.isMessage = [e] ∧
      readTag XmlReading.messageOf e.attributes = .ok start := by
  induction ts generalizing around with
  | nil =>
    simp only [List.foldlM_nil, xmlElementsIn, List.filter_nil]
    constructor
    · rintro ⟨⟩
    · rintro ⟨e, ⟨⟩, -⟩
  | cons t ts ih =>
    rw [List.foldlM_cons]
    cases t with
    | start name attributes | empty name attributes =>
      rw [xmlElementsIn, messageAfter, List.filter_cons]
      by_cases hname : isMessageName name
      · simp only [hname, XmlElement.isMessage, if_true, Option.isSome_none, Bool.false_eq_true,
          if_false, bind_eq_ok_iff]
        constructor
        · rintro ⟨_, ⟨begin_, hbegin, ⟨⟩⟩, h⟩
          obtain ⟨hrest, ⟨⟩⟩ := foldlM_messageAfter_some_iff.mp h
          exact ⟨_, congrArg _ hrest, hbegin⟩
        · rintro ⟨e, he, hstart⟩
          obtain ⟨rfl, hrest⟩ := List.cons.inj he
          exact ⟨_, ⟨start, hstart, rfl⟩, foldlM_messageAfter_some_iff.mpr ⟨hrest, rfl⟩⟩
      · simp only [hname, XmlElement.isMessage, Bool.false_eq_true, if_false]
        exact ih
    | _ => exact ih

end

/-! ## Fields of elements -/

section

variable {t : Token} {text : List Char} {ts content : List Token} {texts : List (List Char)}
  {fs : List Field}

/-- No FIELD begins in content, but the elements around what follows may be others. -/
theorem countP_isField_content (ht : contentOf? t = some text) (ts : List Token)
    (around : List (List Char)) :
    ∃ around', (xmlElementsIn around (t :: ts)).countP XmlElement.isField =
      (xmlElementsIn around' ts).countP XmlElement.isField := by
  have htag {name : List Char} (h : (if isMessageName name then some [] else none) = some text) :
      ¬isFieldName name = true := by
    split at h
    · rename_i hname
      simp [isFieldName_of_isMessageName hname]
    · cases h
  cases t with
  | start name attributes | empty name attributes =>
    exact ⟨_, List.countP_cons_of_neg (htag ht)⟩
  | _ => exact ⟨_, rfl⟩

theorem countP_isField_contents
    (h : List.Forall₂ (fun t text => contentOf? t = some text) content texts) (ts : List Token)
    (around : List (List Char)) :
    ∃ around', (xmlElementsIn around (content ++ ts)).countP XmlElement.isField =
      (xmlElementsIn around' ts).countP XmlElement.isField := by
  induction h generalizing around with
  | nil => exact ⟨around, rfl⟩
  | @cons t text content texts ht _ ih =>
    obtain ⟨next, hnext⟩ := countP_isField_content ht (content ++ ts) around
    obtain ⟨last, hlast⟩ := ih next
    exact ⟨last, hnext.trans hlast⟩

/-- Every FIELD element is one of the fields, wherever it stands. -/
theorem StatesFields.length_eq (h : StatesFields ts fs) (around : List (List Char)) :
    fs.length = (xmlElementsIn around ts).countP XmlElement.isField := by
  induction h generalizing around with
  | nil => rfl
  | content ht _ ih =>
    obtain ⟨next, hnext⟩ := countP_isField_content ht _ around
    rw [hnext]
    exact ih next
  | @alone name attributes _ _ _ _ hname _ _ _ ih =>
    have hfield : XmlElement.isField ⟨name, attributes, around⟩ = true := hname
    rw [xmlElementsIn, List.countP_cons_of_pos hfield, List.length_cons, ih around]
  | @element name attributes closed _ _ _ _ ts _ hname _ hcontent _ _ _ ih =>
    have hfield : XmlElement.isField ⟨name, attributes, around⟩ = true := hname
    obtain ⟨next, hnext⟩ :=
      countP_isField_contents hcontent (.close closed :: ts) (name :: around)
    rw [xmlElementsIn, List.countP_cons_of_pos hfield, List.length_cons, hnext, ih next.tail]
    rfl

end

/-! ## Places of elements -/

namespace XmlReading

variable {opened : List (List Char)} {r r' : XmlReading} {name attributes : List Char}
  {isEmpty : Bool}

/-- The open elements are the FIELD that is being read and a MESSAGE that has begun. -/
structure Inside (opened : List (List Char)) (r : XmlReading) : Prop where
  named : ∀ n ∈ opened, isFieldName n = true ∨ isMessageName n = true
  fields : opened.countP isFieldName = r.openField.isSome.toNat
  messages : opened.countP isMessageName ≤ r.message.isSome.toNat

theorem countP_add_countP (h : ∀ n ∈ opened, isFieldName n = true ∨ isMessageName n = true) :
    opened.countP isFieldName + opened.countP isMessageName = opened.length := by
  induction opened with
  | nil => rfl
  | cons n opened ih =>
    have hrest := ih fun x hx => h x (List.mem_cons_of_mem _ hx)
    rw [List.countP_cons, List.countP_cons, List.length_cons, ← hrest]
    rcases h n List.mem_cons_self with hname | hname
    · simp only [hname, isMessageName_of_isFieldName hname, if_true, Bool.false_eq_true, if_false]
      omega
    · simp only [hname, isFieldName_of_isMessageName hname, if_true, Bool.false_eq_true, if_false]
      omega

theorem singleton_of_countP {p : List Char → Bool} (h : opened.countP p = opened.length)
    (hle : opened.length ≤ 1) : opened = [] ∨ ∃ n, opened = [n] ∧ p n = true := by
  match opened, h, hle with
  | [], _, _ => exact .inl rfl
  | [n], h, _ => exact .inr ⟨n, rfl, by simpa using h⟩

theorem Inside.placed (hin : Inside opened r) (h : r.element name attributes isEmpty = .ok r') :
    XmlElement.Placed ⟨name, attributes, opened⟩ := by
  obtain ⟨hnamed, hfields, hmessages⟩ := hin
  have hcount := countP_add_countP hnamed
  rcases name_of_element h with ⟨hname, hm⟩ | ⟨hname, ho⟩
  · have hone := Bool.toNat_le r.openField.isSome
    rw [hm, Option.isSome_none, Bool.toNat_false] at hmessages
    have hall : opened.countP isFieldName = opened.length := by omega
    have hle : opened.length ≤ 1 := by omega
    exact .inr ⟨hname, singleton_of_countP hall hle⟩
  · have hone := Bool.toNat_le r.message.isSome
    rw [ho, Option.isSome_none, Bool.toNat_false] at hfields
    have hall : opened.countP isMessageName = opened.length := by omega
    have hle : opened.length ≤ 1 := by omega
    exact .inl ⟨hname, singleton_of_countP hall hle⟩

theorem Inside.same (hin : Inside opened r) {q : XmlReading}
    (ho : q.openField.isSome = r.openField.isSome)
    (hm : r.message.isSome.toNat ≤ q.message.isSome.toNat) : Inside opened q :=
  ⟨hin.named, ho ▸ hin.fields, Nat.le_trans hin.messages hm⟩

theorem Inside.pushField (hin : Inside opened r) {o : OpenField} (hname : isFieldName name = true)
    (ho : r.openField = none) : Inside (name :: opened) { r with openField := some o } := by
  obtain ⟨hnamed, hfields, hmessages⟩ := hin
  refine ⟨List.forall_mem_cons.mpr ⟨.inl hname, hnamed⟩, ?_, ?_⟩
  · rw [List.countP_cons_of_pos hname, hfields, ho]
    rfl
  · rwa [List.countP_cons_of_neg (by simp [isMessageName_of_isFieldName hname])]

theorem Inside.pushMessage (hin : Inside opened r) {start : Message}
    (hname : isMessageName name = true) (hm : r.message = none) :
    Inside (name :: opened) { r with message := some start } := by
  obtain ⟨hnamed, hfields, hmessages⟩ := hin
  refine ⟨List.forall_mem_cons.mpr ⟨.inr hname, hnamed⟩, ?_, ?_⟩
  · rwa [List.countP_cons_of_neg (by simp [isFieldName_of_isMessageName hname])]
  · rw [hm] at hmessages
    rw [List.countP_cons_of_pos hname]
    exact Nat.succ_le_succ hmessages

theorem Inside.popField (hin : Inside (name :: opened) r) (hname : isFieldName name = true) :
    Inside opened { r with openField := none } := by
  obtain ⟨hnamed, hfields, hmessages⟩ := hin
  refine ⟨(List.forall_mem_cons.mp hnamed).2, ?_, ?_⟩
  · have hone := Bool.toNat_le r.openField.isSome
    rw [List.countP_cons_of_pos hname] at hfields
    show opened.countP isFieldName = 0
    omega
  · rwa [List.countP_cons_of_neg (by simp [isMessageName_of_isFieldName hname])] at hmessages

theorem Inside.popOther (hin : Inside (name :: opened) r) (hname : ¬isFieldName name = true) :
    Inside opened r := by
  obtain ⟨hnamed, hfields, hmessages⟩ := hin
  refine ⟨(List.forall_mem_cons.mp hnamed).2, ?_, ?_⟩
  · rwa [List.countP_cons_of_neg hname] at hfields
  · refine Nat.le_trans ?_ hmessages
    exact (List.sublist_cons_self name opened).countP_le

theorem Inside.step {t : Token} (hin : Inside opened r) (h : Step r t r') :
    match t with
    | .start name _ => Inside (name :: opened) r'
    | .close name => ∀ outer, opened = name :: outer → Inside outer r'
    | _ => Inside opened r' := by
  cases h with
  | content ht hm =>
    -- of the content only the tags of a message change what is open
    cases t with
    | start name attributes =>
      obtain ⟨hname, -, hnone, start, -, rfl⟩ := messageAfter_tag ht hm
      exact (hin.pushMessage hname hnone).same (by simp) (Nat.le_refl _)
    | empty name attributes =>
      obtain ⟨-, -, hnone, start, -, rfl⟩ := messageAfter_tag ht hm
      exact hin.same (by simp) (by simp [hnone])
    | close name =>
      rintro outer rfl
      rw [contentOf?] at ht
      split at ht
      · cases ht
      · rename_i hname
        cases hm
        exact (hin.popOther hname).same (by simp) (Nat.le_refl _)
    | malformed => cases ht
    | _ =>
      cases hm
      exact hin.same (by simp) (Nat.le_refl _)
  | opens hname _ => exact hin.pushField hname rfl
  | alone hname _ _ => exact hin.same rfl (Nat.le_refl _)
  | closes hname _ =>
    rintro outer rfl
    exact (hin.popField hname).same rfl (Nat.le_refl _)

theorem placed_of_foldlM_step {ts : List Token} (hin : Inside opened r)
    (h : (Xml.matched opened ts).foldlM step r = .ok r') :
    ∀ e ∈ xmlElementsIn opened (Xml.matched opened ts), e.Placed := by
  induction ts generalizing opened r with
  | nil => simp [Xml.matched, xmlElementsIn]
  | cons t ts ih =>
    cases t with
    | start name attributes =>
      obtain ⟨q, hq, h⟩ := foldlM_step_cons_iff.mp h
      exact List.forall_mem_cons.mpr ⟨hin.placed hq.step_eq, ih (hin.step hq) h⟩
    | empty name attributes =>
      obtain ⟨q, hq, h⟩ := foldlM_step_cons_iff.mp h
      exact List.forall_mem_cons.mpr ⟨hin.placed hq.step_eq, ih (hin.step hq) h⟩
    | close name =>
      cases opened with
      | nil => simp [Xml.matched, xmlElementsIn]
      | cons innermost outer =>
        rw [Xml.matched] at h ⊢
        -- a tag that closes another element ends the tokens, and no element begins any more
        split at h
        · rename_i heq
          obtain ⟨q, hq, h⟩ := foldlM_step_cons_iff.mp h
          rw [if_pos heq]
          exact ih (hin.step hq outer (by rw [heq])) h
        · rename_i hne
          simp [if_neg hne, xmlElementsIn]
    | _ =>
      obtain ⟨q, hq, h⟩ := foldlM_step_cons_iff.mp h
      exact ih (hin.step hq) h

end XmlReading

/-! ## Documents -/

theorem XmlReading.ofText_eq_ok_iff {text : String} {r : XmlReading} : ofText text = .ok r ↔
    (Xml.tokens text.toList).foldlM step empty = .ok r ∧ r.openField = none := by
  rw [ofText, bind_eq_ok_iff]
  constructor
  · rintro ⟨q, hq, h⟩
    split at h
    · cases h
    · rename_i hnone
      cases h
      exact ⟨hq, Option.not_isSome_iff_eq_none.mp hnone⟩
  · rintro ⟨hr, hnone⟩
    refine ⟨r, hr, ?_⟩
    rw [hnone]
    rfl

theorem placed_xmlElements {text : String} {r : XmlReading}
    (h : (Xml.tokens text.toList).foldlM XmlReading.step .empty = .ok r) :
    ∀ e ∈ xmlElements text, e.Placed := by
  have hstart : XmlReading.Inside [] .empty := ⟨by simp, rfl, Nat.le_refl 0⟩
  have hmatched : ∃ ts, Xml.tokens text.toList = Xml.matched [] ts := by
    unfold Xml.tokens
    split
    · exact ⟨_, rfl⟩
    · exact ⟨[], rfl⟩
  obtain ⟨ts, hts⟩ := hmatched
  rw [xmlElements, hts]
  rw [hts] at h
  exact XmlReading.placed_of_foldlM_step hstart h

/-- A document is accepted if it has one MESSAGE element and otherwise states fields. Each element
then stands alone or right in one of the other kind, and it does not matter which: the fields before
and behind the MESSAGE element and those around it are put in like the ones within. -/
theorem messageOfXml_eq_ok_iff (text : String) (m : Message) :
    (messageOfXml text).outcome = .ok m ↔
      ∃ tag start fs, (xmlElements text).filter XmlElement.isMessage = [tag] ∧
        readTag XmlReading.messageOf tag.attributes = .ok start ∧
        StatesFields (Xml.tokens text.toList) fs ∧ m = start.addAll fs ∧
        fs.length = (xmlElements text).countP XmlElement.isField ∧
        ∀ e ∈ xmlElements text, e.Placed := by
  rw [outcome_messageOfXml_eq_ok_iff]
  constructor
  · rintro ⟨r, start, hr, hstart, rfl⟩
    obtain ⟨hrun, hclosed⟩ := XmlReading.ofText_eq_ok_iff.mp hr
    obtain ⟨fs, hstates, hmessage, hfields⟩ := XmlReading.states_of_foldlM_step hrun hclosed
    rw [hstart] at hmessage
    obtain ⟨tag, htag, hread⟩ := foldlM_messageAfter_none_iff.mp hmessage
    exact ⟨tag, start, fs, htag, hread, hstates, congrArg start.addAll hfields,
      hstates.length_eq [], placed_xmlElements hrun⟩
  · rintro ⟨tag, start, fs, htag, hread, hstates, rfl, -, -⟩
    have hmessage := foldlM_messageAfter_none_iff.mpr ⟨tag, htag, hread⟩
    have hrun := XmlReading.foldlM_step_of_states [] hstates hmessage
    exact ⟨_, start, XmlReading.ofText_eq_ok_iff.mpr ⟨hrun, rfl⟩, rfl, rfl⟩

/-- A field before a message without content. -/
def fieldThenMessage : String := "<FIELD NAME=\"X\" TYPE=\"I8\">3</FIELD><MESSAGE/>"

/-- The field is put in although no element is around it. -/
theorem fieldThenMessage_accepted :
    (messageOfXml fieldThenMessage).outcome =
        .ok ((Message.new .publish).add ⟨"X", .integer .i8 ⟨3, by decide, by decide⟩, by decide⟩) ∧
      ∃ e ∈ xmlElements fieldThenMessage, e.isField = true ∧ e.around = [] := by
  decide +kernel

end BusCompliance.Wire
