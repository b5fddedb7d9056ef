import BusCompliance.Compliance.Subject
import BusCompliance.Proofs.Text.Dotted

/-!
# Subjects that satisfy their elements

`TokensSatisfied` says of the tokens of a subject what they have to be like, place by place. The
check passes exactly these, and looking for two dots in a row first makes no difference to that.
-/

namespace BusCompliance

/-! ## Tokens -/

/-- The token is what the rule asks for. Fields that are all absent ask for nothing. -/
inductive TokenRule.Allows (m : Message) (token : String) : TokenRule → Prop
  | literal : Allows m token (.literal token)
  | absent {names : List String} (hfield : Template.boundField? m names = none) :
      Allows m token (.field names)
  | field {names : List String} {f : Field} (hfield : Template.boundField? m names = some f)
      (htoken : token = f.text ∨ token = Text.upper f.text) : Allows m token (.field names)
  | anything : Allows m token (.variable [])
  | listed {values : List String} (htoken : token ∈ values) : Allows m token (.variable values)

/-- A token of capitals, digits, hyphens and underscores that fills an optional element or is as
the rule of the element asks. -/
structure TokenSatisfied (m : Message) (e : SubjectElement) (token : String) : Prop where
  filled : token ≠ ""
  characters : ∀ c ∈ token.toList, isHeaderChar c = true
  ruled : (token = fillToken ∧ e.optional = true) ∨ e.rule.Allows m token

/-- No token is left over, an element without a token is optional, and each token satisfies the
element in its place. -/
structure TokensSatisfied (m : Message) (elements : List SubjectElement) (tokens : List String) :
    Prop where
  fits : tokens.length ≤ elements.length
  left_out : ∀ (i : Nat) (e : SubjectElement), elements[i]? = some e → tokens.length ≤ i →
    e.optional = true
  matched : ∀ (i : Nat) (e : SubjectElement) (token : String), elements[i]? = some e →
    tokens[i]? = some token → TokenSatisfied m e token

variable {m : Message} {e : SubjectElement} {es : List SubjectElement} {token : String}
  {tokens : List String}

theorem ruleFault?_eq_none_iff {rule : TokenRule} {element : String} :
    rule.fault? m element token = none ↔ rule.Allows m token := by
  rcases rule with text | names | values
  · simp only [TokenRule.fault?]
    constructor
    · intro h
      split at h
      · rename_i heq
        exact heq ▸ .literal
      · cases h
    · rintro ⟨⟩
      exact if_pos rfl
  · simp only [TokenRule.fault?]
    constructor
    · intro h
      split at h
      · rename_i hfield
        exact .absent hfield
      · rename_i f hfield
        split at h
        · rename_i htoken
          exact .field hfield htoken
        · cases h
    · intro h
      cases h with
      | absent hfield => rw [hfield]
      | field hfield htoken =>
        rw [hfield]
        exact if_pos htoken
  · simp only [TokenRule.fault?]
    constructor
    · intro h
      split at h
      · rename_i hvalues
        rcases hvalues with hnil | hlisted
        · rw [List.isEmpty_iff.mp hnil]
          exact .anything
        · exact .listed (List.contains_iff_mem.mp hlisted)
      · cases h
    · intro h
      cases h with
      | anything => rfl
      | listed htoken => exact if_pos (.inr (List.contains_iff_mem.mpr htoken))

theorem elementFault?_eq_none_iff : e.fault? m token = none ↔ TokenSatisfied m e token := by
  unfold SubjectElement.fault?
  constructor
  · intro h
    split at h
    · cases h
    rename_i hfilled
    split at h
    · cases h
    rename_i hcharacters
    refine ⟨?_, ?_, ?_⟩
    · rintro rfl
      exact hfilled rfl
    · simpa using hcharacters
    · split at h
      · rename_i hfill
        exact .inl hfill
      · exact .inr (ruleFault?_eq_none_iff.mp h)
  · intro h
    have hfilled : token.isEmpty = false := by simpa using h.filled
    have hcharacters : token.toList.all isHeaderChar = true := List.all_eq_true.mpr h.characters
    simp only [hfilled, hcharacters, Bool.not_true, Bool.false_eq_true, if_false]
    split
    · rfl
    · rename_i hfill
      exact ruleFault?_eq_none_iff.mpr (h.ruled.resolve_left hfill)

/-! ## Places -/

theorem tokensSatisfied_nil : TokensSatisfied m [] [] where
  fits := Nat.le_refl 0
  left_out i e he := by simp at he
  matched i e token he := by simp at he

theorem tokensSatisfied_cons_nil :
    TokensSatisfied m (e :: es) [] ↔ e.optional = true ∧ TokensSatisfied m es [] := by
  constructor
  · intro h
    refine ⟨h.left_out 0 e rfl (Nat.le_refl 0), Nat.zero_le _, ?_, ?_⟩
    · intro i x hx _
      exact h.left_out (i + 1) x hx (Nat.zero_le _)
    · intro i x token _ htoken
      simp at htoken
  · rintro ⟨hoptional, h⟩
    refine ⟨Nat.zero_le _, ?_, ?_⟩
    · intro i x hx _
      cases i with
      | zero => exact Option.some.inj hx ▸ hoptional
      | succ i => exact h.left_out i x hx (Nat.zero_le _)
    · intro i x token _ htoken
      simp at htoken

theorem tokensSatisfied_cons_cons : TokensSatisfied m (e :: es) (token :: tokens) ↔
    TokenSatisfied m e token ∧ TokensSatisfied m es tokens := by
  constructor
  · intro h
    refine ⟨h.matched 0 e token rfl rfl, Nat.le_of_succ_le_succ h.fits, ?_, ?_⟩
    · intro i x hx hi
      exact h.left_out (i + 1) x hx (Nat.succ_le_succ hi)
    · intro i x t hx ht
      exact h.matched (i + 1) x t hx ht
  · rintro ⟨hfirst, h⟩
    refine ⟨Nat.succ_le_succ h.fits, ?_, ?_⟩
    · intro i x hx hi
      cases i with
      | zero => exact absurd hi (Nat.not_succ_le_zero _)
      | succ i => exact h.left_out i x hx (Nat.le_of_succ_le_succ hi)
    · intro i x t hx ht
      cases i with
      | zero => exact Option.some.inj hx ▸ Option.some.inj ht ▸ hfirst
      | succ i => exact h.matched i x t hx ht

theorem tokensFault?_eq_none_iff : tokensFault? m es tokens = none ↔ TokensSatisfied m es tokens := by
  fun_induction tokensFault? m es tokens with
  | case1 => exact ⟨fun _ => tokensSatisfied_nil, fun _ => rfl⟩
  | case2 token rest =>
    constructor
    · intro h
      cases h
    · intro h
      exact absurd h.fits (Nat.not_succ_le_zero _)
  | case3 e es hoptional ih => rw [ih, tokensSatisfied_cons_nil, and_iff_right hoptional]
  | case4 e es hneeded =>
    constructor
    · intro h
      cases h
    · intro h
      exact absurd (tokensSatisfied_cons_nil.mp h).1 hneeded
  | case5 e es token tokens fault hfault =>
    constructor
    · intro h
      cases h
    · intro h
      have hnone := elementFault?_eq_none_iff.mpr (tokensSatisfied_cons_cons.mp h).1
      rw [hfault] at hnone
      cases hnone
  | case6 e es token tokens hnone ih =>
    rw [ih, tokensSatisfied_cons_cons, and_iff_right (elementFault?_eq_none_iff.mp hnone)]

/-! ## Subjects -/

/-- A template without elements asks nothing of a subject. -/
def SubjectSatisfied (m : Message) (elements : List SubjectElement) (subject : String) : Prop :=
  elements = [] ∨ TokensSatisfied m elements (Text.segments subject)

/-- Two dots in a row would leave an empty token, which no element allows. -/
theorem not_tokensSatisfied_of_empty (h : "" ∈ tokens) : ¬TokensSatisfied m es tokens := by
  intro hsatisfied
  obtain ⟨i, htoken⟩ := List.mem_iff_getElem?.mp h
  have hi : i < tokens.length := (List.getElem?_eq_some_iff.mp htoken).1
  obtain ⟨e, he⟩ : ∃ e, es[i]? = some e :=
    ⟨_, List.getElem?_eq_getElem (Nat.lt_of_lt_of_le hi hsatisfied.fits)⟩
  exact (hsatisfied.matched i e "" he htoken).filled rfl

theorem subjectFault?_eq_none_iff {subject : String} :
    subjectFault? m es subject = none ↔ SubjectSatisfied m es subject := by
  unfold subjectFault? SubjectSatisfied
  split
  · rename_i hnil
    exact ⟨fun _ => .inl (List.isEmpty_iff.mp hnil), fun _ => rfl⟩
  · rename_i hcons
    have hne : es ≠ [] := fun h => hcons (List.isEmpty_iff.mpr h)
    rw [or_iff_right hne]
    split
    · rename_i hdots
      constructor
      · intro h
        cases h
      · intro h
        have hinfix := (Text.isSome_splitMark_iff (by decide)).mp hdots
        exact absurd h (not_tokensSatisfied_of_empty (Text.empty_mem_segments hinfix))
    · exact tokensFault?_eq_none_iff

end BusCompliance
