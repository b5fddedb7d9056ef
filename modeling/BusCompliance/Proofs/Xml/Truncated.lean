import BusCompliance.Proofs.Xml.Written
import Mathlib.Data.List.TakeWhile

/-!
# Written markup that breaks off

A tag that breaks off is no token but an error. A single angle at the end is passed over, and a
closing tag may lack its own angle.
-/

namespace BusCompliance.Xml

/-! ## Beginnings of texts -/

section

variable {α : Type} {p a b : List α} {c : α}

/-- A text that breaks off does so within its first part or behind it. -/
theorem prefix_append_cases (h : p <+: a ++ b) :
    (p <+: a ∧ p ≠ a) ∨ ∃ q, p = a ++ q ∧ q <+: b := by
  rcases List.prefix_or_prefix_of_prefix h (List.prefix_append a b) with hfirst | ⟨q, rfl⟩
  · by_cases hne : p = a
    · exact .inr ⟨[], by simp [hne], List.nil_prefix⟩
    · exact .inl ⟨hfirst, hne⟩
  · exact .inr ⟨q, rfl, (List.prefix_append_right_inj a).mp h⟩

theorem prefix_append_cons_cases (h : p <+: a ++ c :: b) :
    p <+: a ∨ ∃ q, p = a ++ c :: q ∧ q <+: b := by
  rcases prefix_append_cases h with ⟨hfirst, -⟩ | ⟨q, rfl, hq⟩
  · exact .inl hfirst
  · rcases List.prefix_cons_iff.mp hq with rfl | ⟨r, rfl, hr⟩
    · rw [List.append_nil]
      exact .inl (List.prefix_refl a)
    · exact .inr ⟨r, rfl, hr⟩

end

/-! ## Tokens at the end -/

theorem lexemes_nil : lexemes [] = [] := by
  rw [lexemes]

theorem lexemes_angle : lexemes ['<'] = [] := by
  rw [lexemes]
  rfl

theorem lexemes_lastText {text : List Char} (hne : text ≠ []) (h : ∀ c ∈ text, c ≠ '<') :
    lexemes text = [.text text] := by
  obtain ⟨c, r, rfl⟩ := List.exists_cons_of_ne_nil hne
  have hr : ∀ x ∈ r, (x != '<') = true := fun x hx => by
    simpa using h x (List.mem_cons_of_mem _ hx)
  rw [lexemes, if_neg (h c List.mem_cons_self), List.takeWhile_eq_self_iff.mpr hr,
    List.dropWhile_eq_nil_iff.mpr hr, lexemes_nil]

theorem spanTag_eq_none {quote : Option Char} {cs : List Char} (h : ∀ c ∈ cs, c ≠ '>') :
    spanTag quote cs = none := by
  induction cs generalizing quote with
  | nil => rfl
  | cons c r ih =>
    have hc := h c List.mem_cons_self
    rw [spanTag, if_neg fun hclose => hc hclose.1, ih fun x hx => h x (List.mem_cons_of_mem _ hx)]
    rfl

theorem lexemes_brokenTag {name text p : List Char} (hn : IsTagName name) (hp : p <+: name ++ text)
    (hne : p ≠ []) (h : ∀ c ∈ name ++ text, c ≠ '>') : lexemes ('<' :: p) = [.malformed] := by
  obtain ⟨⟨hname, -⟩, h1, h2, h3⟩ := hn
  obtain ⟨c, name, rfl⟩ := List.exists_cons_of_ne_nil hname
  obtain ⟨d, r, rfl⟩ := List.exists_cons_of_ne_nil hne
  obtain rfl : d = c := (List.cons_prefix_cons.mp hp).1
  have hclose : ∀ x ∈ d :: r, x ≠ '>' := fun x hx => h x (hp.subset hx)
  have hspan : spanMarkup (d :: r) = none := by
    unfold spanMarkup
    split
    · simp_all
    · simp_all
    · simp_all
    · rw [spanTag_eq_none hclose]
      rfl
  rw [lexemes, if_pos rfl, if_neg (by simp)]
  split
  · rfl
  · rename_i hs
    rw [hspan] at hs
    cases hs

/-- What there is of a closing tag closes an element of that name. -/
theorem lexemes_brokenClose {name p : List Char} (hn : IsPlainName name) (hp : p <+: name) :
    lexemes ('<' :: '/' :: p) = [.close p] := by
  have hclose : ∀ c ∈ p, (c != '>') = true := fun c hc => by
    simpa using (hn.2 c (hp.subset hc)).2.1
  have hspan : spanMarkup ('/' :: p) = some (.close p, []) := by
    simp only [spanMarkup]
    rw [List.takeWhile_eq_self_iff.mpr hclose, List.dropWhile_eq_nil_iff.mpr hclose,
      closeName_eq_self fun c hc => isSpace_of_plain hn (hp.subset hc)]
    rfl
  rw [lexemes_markup (List.cons_ne_nil _ _) hspan, lexemes_nil]

end BusCompliance.Xml
