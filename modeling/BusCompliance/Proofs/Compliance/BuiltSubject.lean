import BusCompliance.Compliance.Checker
import BusCompliance.Proofs.Compliance.Subject

/-!
# Built subjects

The subject that a template builds for a message has a token for each of its elements, but for
optional ones at the end. It passes the check of the template, unless no token is left: then the
subject is empty, and the check takes it for one empty token.
-/

namespace BusCompliance

variable {m : Message} {e : SubjectElement} {es : List SubjectElement} {t : Template}
  {token : String}

/-! ## Tokens of elements -/

/-- The token that an element has for a message may stand in a subject, and so may the filling where
the element has none. -/
structure SubjectElement.IsSound (m : Message) (e : SubjectElement) : Prop where
  filled : ∀ token, Template.token? m e = some token → token ≠ ""
  characters : ∀ token, Template.token? m e = some token → ∀ c ∈ token.toList, isHeaderChar c = true
  fill : ∀ values, e.rule = .variable values → e.optional = false →
    values = [] ∨ fillToken ∈ values

/-- A token that may stand in a subject makes its element sound, as no variable one has a token. -/
theorem isSound_of_token? (h : Template.token? m e = some token)
    (hfilled : token ≠ "" ∧ token.toList.all isHeaderChar = true) : e.IsSound m := by
  refine ⟨?_, ?_, ?_⟩
  · intro other hother
    rw [← Option.some.inj (h.symm.trans hother)]
    exact hfilled.1
  · intro other hother
    rw [← Option.some.inj (h.symm.trans hother)]
    exact List.all_eq_true.mp hfilled.2
  · intro values hrule
    unfold Template.token? at h
    rw [hrule] at h
    cases h

/-- An optional element without a token is sound. -/
theorem isSound_of_optional (h : Template.token? m e = none) (hoptional : e.optional = true) :
    e.IsSound m := by
  refine ⟨?_, ?_, ?_⟩
  · intro token htoken
    cases h.symm.trans htoken
  · intro token htoken
    cases h.symm.trans htoken
  · intro values _ hneeded
    cases hoptional.symm.trans hneeded

/-- The token that stands for an element which is not left out. -/
def SubjectElement.written (m : Message) (e : SubjectElement) : String :=
  (Template.token? m e).getD fillToken

theorem allows_token (h : Template.token? m e = some token) : e.rule.Allows m token := by
  unfold Template.token? at h
  rcases hrule : e.rule with text | names | values
  · rw [hrule] at h
    cases h
    exact .literal
  · rw [hrule] at h
    obtain ⟨f, hfield, rfl⟩ := Option.map_eq_some_iff.mp h
    exact .field hfield (.inr rfl)
  · rw [hrule] at h
    cases h

theorem allows_fill (hsound : e.IsSound m) (h : Template.token? m e = none)
    (hoptional : e.optional = false) : e.rule.Allows m fillToken := by
  unfold Template.token? at h
  rcases hrule : e.rule with text | names | values
  · rw [hrule] at h
    cases h
  · rw [hrule] at h
    exact .absent (Option.map_eq_none_iff.mp h)
  · rcases hsound.fill values hrule hoptional with rfl | hlisted
    · exact .anything
    · exact .listed hlisted

theorem all_fillToken : fillToken.toList.all isHeaderChar = true := by
  decide

theorem tokenSatisfied_written (h : e.IsSound m) : TokenSatisfied m e (e.written m) := by
  unfold SubjectElement.written
  cases htoken : Template.token? m e with
  | some token => exact ⟨h.filled token htoken, h.characters token htoken, .inr (allows_token htoken)⟩
  | none =>
    refine ⟨by decide, List.all_eq_true.mp all_fillToken, ?_⟩
    cases hoptional : e.optional with
    | true => exact .inl ⟨rfl, rfl⟩
    | false => exact .inr (allows_fill h htoken hoptional)

/-! ## Tokens of subjects -/

/-- An element is left out if it is optional, has no token, and all behind it is left out. -/
theorem tokens_cons (m : Message) (e : SubjectElement) (es : List SubjectElement) :
    Template.tokens m (e :: es) =
      if (Template.token? m e = none ∧ e.optional = true) ∧ Template.tokens m es = [] then []
      else e.written m :: Template.tokens m es := by
  unfold SubjectElement.written
  rw [Template.tokens]
  cases Template.token? m e with
  | some token => rfl
  | none =>
    cases Template.tokens m es with
    | cons token tokens => simp
    | nil => cases e.optional <;> rfl

/-- No token is left if every element is optional and has none. -/
theorem tokens_eq_nil_iff : Template.tokens m es = [] ↔
    ∀ e ∈ es, Template.token? m e = none ∧ e.optional = true := by
  induction es with
  | nil => simp [Template.tokens]
  | cons e es ih =>
    rw [tokens_cons, List.forall_mem_cons, ← ih]
    split
    · rename_i hdropped
      exact iff_of_true rfl hdropped
    · rename_i hkept
      exact iff_of_false (List.cons_ne_nil _ _) hkept

/-- No element is left out before one that has a token. -/
theorem tokens_append (h : Template.token? m e = some token)
    (before behind : List SubjectElement) : Template.tokens m (before ++ e :: behind) =
      before.map (·.written m) ++ token :: Template.tokens m behind := by
  induction before with
  | nil =>
    have hwritten : e.written m = token := by
      unfold SubjectElement.written
      rw [h, Option.getD_some]
    rw [List.nil_append, tokens_cons, h, hwritten]
    simp
  | cons first before ih =>
    rw [List.cons_append, tokens_cons, ih]
    simp

theorem tokensSatisfied_tokens (h : ∀ e ∈ es, e.IsSound m) :
    TokensSatisfied m es (Template.tokens m es) := by
  induction es with
  | nil => exact tokensSatisfied_nil
  | cons e es ih =>
    obtain ⟨he, hes⟩ := List.forall_mem_cons.mp h
    rw [tokens_cons]
    split
    · rename_i hdropped
      obtain ⟨⟨-, hoptional⟩, hnil⟩ := hdropped
      exact tokensSatisfied_cons_nil.mpr ⟨hoptional, hnil ▸ ih hes⟩
    · exact tokensSatisfied_cons_cons.mpr ⟨tokenSatisfied_written he, ih hes⟩

theorem TokensSatisfied.characters {tokens : List String} (h : TokensSatisfied m es tokens)
    (htoken : token ∈ tokens) : ∀ c ∈ token.toList, isHeaderChar c = true := by
  obtain ⟨i, hi⟩ := List.mem_iff_getElem?.mp htoken
  have hlt : i < es.length := Nat.lt_of_lt_of_le (List.getElem?_eq_some_iff.mp hi).1 h.fits
  exact (h.matched i es[i] token (List.getElem?_eq_getElem hlt) hi).characters

/-! ## Subjects -/

/-- The tokens of a subject can be told from it, as none of them holds a dot. -/
theorem segments_buildSubject (h : ∀ e ∈ t.subject, e.IsSound m)
    (hne : Template.tokens m t.subject ≠ []) :
    Text.segments (t.buildSubject m) = Template.tokens m t.subject := by
  refine Text.segments_join ?_ hne
  intro token htoken hdot
  exact absurd ((tokensSatisfied_tokens h).characters htoken '.' hdot) (by decide)

theorem buildSubject_eq_empty (hnil : Template.tokens m t.subject = []) :
    t.buildSubject m = "" := by
  unfold Template.buildSubject
  rw [hnil]
  rfl

theorem subjectFault?_empty (m : Message) (e : SubjectElement) (es : List SubjectElement) :
    subjectFault? m (e :: es) "" = some (.emptyToken e.name) := by
  have hsegments : Text.segments "" = [""] := rfl
  unfold subjectFault?
  rw [if_neg (by simp), if_neg (by simp [Text.splitMark]), hsegments]
  rfl

/-- The subject that a template builds passes its own check if an element is needed or has a token.
Otherwise the subject is empty, and the first element is said to be. -/
theorem subjectFault?_buildSubject (hne : t.subject ≠ []) (h : ∀ e ∈ t.subject, e.IsSound m) :
    (subjectFault? m t.subject (t.buildSubject m) = none ↔
      ∃ e ∈ t.subject, e.optional = false ∨ (Template.token? m e).isSome = true) ∧
    ∀ fault, subjectFault? m t.subject (t.buildSubject m) = some fault →
      t.buildSubject m = "" ∧ ∃ e, t.subject.head? = some e ∧ fault = .emptyToken e.name := by
  by_cases hnil : Template.tokens m t.subject = []
  · obtain ⟨e, es, hes⟩ := List.exists_cons_of_ne_nil hne
    have hfault : subjectFault? m t.subject (t.buildSubject m) = some (.emptyToken e.name) := by
      rw [buildSubject_eq_empty hnil, hes, subjectFault?_empty]
    rw [hfault]
    refine ⟨iff_of_false nofun ?_, ?_⟩
    · rintro ⟨x, hx, hneeded⟩
      obtain ⟨hnone, hoptional⟩ := tokens_eq_nil_iff.mp hnil x hx
      rw [hnone, hoptional] at hneeded
      simp at hneeded
    · rintro _ ⟨⟩
      exact ⟨buildSubject_eq_empty hnil, e, by rw [hes]; rfl, rfl⟩
  · have hfault : subjectFault? m t.subject (t.buildSubject m) = none := by
      rw [subjectFault?_eq_none_iff]
      exact .inr (segments_buildSubject h hnil ▸ tokensSatisfied_tokens h)
    rw [hfault]
    refine ⟨iff_of_true rfl ?_, nofun⟩
    rw [tokens_eq_nil_iff] at hnil
    simp only [Classical.not_forall] at hnil
    obtain ⟨x, hx, hneeded⟩ := hnil
    refine ⟨x, hx, ?_⟩
    cases hoptional : x.optional with
    | false => exact .inl rfl
    | true =>
      refine .inr (Option.isSome_iff_ne_none.mpr ?_)
      exact fun hnone => hneeded ⟨hnone, hoptional⟩

/-- A literal, the value of a field, a room and a note, of which the last two may be left out. -/
def reportTemplate : Template where
  id := "MSG.HB"
  level := .base
  description := ""
  subject := [⟨"TYPE", .literal "MSG", false⟩, ⟨"ROOM", .variable ["B-1"], true⟩,
    ⟨"SUBTYPE", .field ["KIND", "SUBTYPE"], false⟩, ⟨"NOTE", .variable [], true⟩]
  fields := []

def report : Message := (Message.new .publish).add ⟨"SUBTYPE", .string "hb", by decide⟩

/-- The room is filled, the value of the field is written in capitals, and the note is dropped. -/
theorem subjectFault?_buildSubject_report :
    reportTemplate.subject ≠ [] ∧ (∀ e ∈ reportTemplate.subject, e.IsSound report) ∧
      reportTemplate.buildSubject report = "MSG.FILL.HB" ∧
      subjectFault? report reportTemplate.subject (reportTemplate.buildSubject report) = none := by
  have hne : reportTemplate.subject ≠ [] := List.cons_ne_nil _ _
  have hsound : ∀ e ∈ reportTemplate.subject, e.IsSound report := by
    unfold reportTemplate
    simp only [List.forall_mem_cons, List.not_mem_nil, false_implies, implies_true, and_true]
    have htype : Template.token? report ⟨"TYPE", .literal "MSG", false⟩ = some "MSG" := rfl
    have hkind : Template.token? report ⟨"SUBTYPE", .field ["KIND", "SUBTYPE"], false⟩ =
        some "HB" := by decide +kernel
    refine ⟨isSound_of_token? htype (by decide), isSound_of_optional rfl rfl,
      isSound_of_token? hkind (by decide), isSound_of_optional rfl rfl⟩
  refine ⟨hne, hsound, by decide +kernel, (subjectFault?_buildSubject hne hsound).1.mpr ?_⟩
  exact ⟨_, List.mem_cons_self, .inl rfl⟩

/-- The subject of a message may consist of a note, or of nothing. -/
def noteTemplate : Template where
  id := "A"
  level := .base
  description := ""
  subject := [⟨"NOTE", .variable [], true⟩]
  fields := []

/-- The subject that the template builds for a message without any field is refused by it. -/
theorem note_built_refused :
    let m := Message.new .publish
    noteTemplate.subject ≠ [] ∧ (∀ e ∈ noteTemplate.subject, e.IsSound m) ∧
      subjectFault? m noteTemplate.subject (noteTemplate.buildSubject m) =
        some (.emptyToken "NOTE") ∧
      (noteTemplate.check m).value.isOk = false := by
  refine ⟨List.cons_ne_nil _ _, ?_, by decide +kernel, by decide +kernel⟩
  intro e he
  rw [List.mem_singleton.mp he]
  exact isSound_of_optional rfl rfl

end BusCompliance
