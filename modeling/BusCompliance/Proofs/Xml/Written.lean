import BusCompliance.Xml.Token

/-!
# Written markup is read as its tokens

Escaped text holds no angle and no quote, so a tag written with escaped attribute values ends at
its own closing angle, and its attributes come back with their values.
-/

namespace BusCompliance.Xml

/-! ## Spans -/

section

variable {p : Char → Bool} {a r : List Char} {c : Char}

theorem takeWhile_stop (ha : ∀ x ∈ a, p x = true) (hc : p c = false) :
    (a ++ c :: r).takeWhile p = a := by
  rw [List.takeWhile_append_of_pos ha, List.takeWhile_cons_of_neg (by simp [hc]), List.append_nil]

theorem dropWhile_stop (ha : ∀ x ∈ a, p x = true) (hc : p c = false) :
    (a ++ c :: r).dropWhile p = c :: r := by
  rw [List.dropWhile_append_of_pos ha, List.dropWhile_cons_of_neg (by simp [hc])]

end

/-! ## Escaped text -/

theorem mem_escapeChar {c x : Char} (h : x ∈ escapeChar c) :
    x ≠ '<' ∧ x ≠ '>' ∧ x ≠ '\"' ∧ x ≠ '\x27' := by
  have entity {cs : List Char} (hall : (cs.all fun x =>
      decide (x ≠ '<' ∧ x ≠ '>' ∧ x ≠ '\"' ∧ x ≠ '\x27')) = true) (hx : x ∈ cs) :
      x ≠ '<' ∧ x ≠ '>' ∧ x ≠ '\"' ∧ x ≠ '\x27' :=
    of_decide_eq_true (List.all_eq_true.mp hall x hx)
  unfold escapeChar at h
  split at h
  · exact entity (by decide) h
  split at h
  · exact entity (by decide) h
  split at h
  · exact entity (by decide) h
  split at h
  · exact entity (by decide) h
  split at h
  · exact entity (by decide) h
  · rename_i h1 h2 _ h4 h5
    obtain rfl := List.mem_singleton.mp h
    exact ⟨h1, h2, h5, h4⟩

theorem mem_escape {cs : List Char} {x : Char} (h : x ∈ escape cs) :
    x ≠ '<' ∧ x ≠ '>' ∧ x ≠ '\"' ∧ x ≠ '\x27' := by
  obtain ⟨c, _, hc⟩ := List.mem_flatMap.mp h
  exact mem_escapeChar hc

theorem escapeChar_ne_nil (c : Char) : escapeChar c ≠ [] := by
  unfold escapeChar
  repeat' split
  all_goals simp

theorem escape_eq_nil_iff {cs : List Char} : escape cs = [] ↔ cs = [] := by
  cases cs with
  | nil => simp [escape]
  | cons c r => simp [escape, escapeChar_ne_nil]

theorem unescape_eq_self {cs : List Char} (h : ∀ c ∈ cs, c ≠ '&') : unescape cs = some cs := by
  induction cs with
  | nil => rfl
  | cons c r ih =>
    have hr := ih fun x hx => h x (List.mem_cons_of_mem _ hx)
    rw [unescape] at hr ⊢
    rw [unescapeFrom, if_neg (h c List.mem_cons_self), hr, Option.map_some]

/-! ## Attributes -/

/-- An attribute with the blank before it and its value escaped. -/
def attributeText (a : Attribute) : List Char :=
  ' ' :: a.name.toList ++ '=' :: '\"' :: escape a.value.toList ++ ['\"']

/-- A name that ends where it should when it is read. -/
def IsPlainName (name : List Char) : Prop :=
  name ≠ [] ∧ ∀ c ∈ name, isNameEnd c = false ∧ c ≠ '>' ∧ c ≠ '\"' ∧ c ≠ '\x27'

instance (name : List Char) : Decidable (IsPlainName name) :=
  decidable_of_iff (name ≠ [] ∧ (name.all fun c =>
    decide (isNameEnd c = false ∧ c ≠ '>' ∧ c ≠ '\"' ∧ c ≠ '\x27')) = true)
    (by simp [IsPlainName])

theorem isSpace_of_plain {name : List Char} (h : IsPlainName name) {c : Char} (hc : c ∈ name) :
    isSpace c = false := by
  have := (h.2 c hc).1
  simp only [isNameEnd, Bool.or_eq_false_iff] at this
  exact this.2

theorem spanName_plain {name rest : List Char} (h : IsPlainName name) :
    spanName (name ++ '=' :: rest) = some (name, rest) := by
  obtain ⟨hne, hall⟩ := h
  cases name with
  | nil => exact absurd rfl hne
  | cons c r =>
    have hr : ∀ x ∈ r, (!isNameEnd x) = true := fun x hx => by
      rw [(hall x (List.mem_cons_of_mem _ hx)).1]; rfl
    have hend : (!isNameEnd '=') = false := by decide
    have hspace : ¬isSpace '=' = true := by decide
    rw [List.cons_append, spanName, dropWhile_stop hr hend, takeWhile_stop hr hend,
      List.dropWhile_cons_of_neg hspace]
    rfl

theorem spanValue_quoted {value rest : List Char} (h : ∀ c ∈ value, c ≠ '\"') :
    spanValue ('\"' :: value ++ '\"' :: rest) = some (value, rest) := by
  have hv : ∀ x ∈ value, (x != '\"') = true := fun x hx => by simpa using h x hx
  have hq : ('\"' != '\"') = false := by decide
  have hspace : ¬isSpace '\"' = true := by decide
  rw [List.cons_append, spanValue, List.dropWhile_cons_of_neg hspace]
  simp only [true_or, if_true, dropWhile_stop hv hq, takeWhile_stop hv hq]

theorem rawAttributes_attributeText {a : Attribute} {rest : List Char}
    (h : IsPlainName a.name.toList) :
    rawAttributes (attributeText a ++ rest) =
      (rawAttributes rest).map ((a.name.toList, escape a.value.toList) :: ·) := by
  obtain ⟨c, r, hcr⟩ := List.exists_cons_of_ne_nil h.1
  have hc : isSpace c = false := isSpace_of_plain h (by rw [hcr]; exact List.mem_cons_self)
  have hvalue : ∀ x ∈ escape a.value.toList, x ≠ '\"' := fun x hx => (mem_escape hx).2.2.1
  have hall : (attributeText a ++ rest).all isSpace = false := by
    rw [attributeText, hcr, List.all_eq_false]
    exact ⟨c, by simp, by simp [hc]⟩
  have hdrop : (attributeText a ++ rest).dropWhile isSpace =
      a.name.toList ++ '=' :: ('\"' :: escape a.value.toList ++ '\"' :: rest) := by
    have hblank : isSpace ' ' = true := by decide
    simp only [attributeText, hcr, List.cons_append, List.append_assoc, List.nil_append]
    rw [List.dropWhile_cons_of_pos hblank, List.dropWhile_cons_of_neg (by simp [hc])]
  have hspan : spanAttribute ((attributeText a ++ rest).dropWhile isSpace) =
      some ((a.name.toList, escape a.value.toList), rest) := by
    rw [hdrop, spanAttribute, spanName_plain h]
    simp only [spanValue_quoted hvalue, Option.map_some]
  rw [rawAttributes, hall]
  simp only [Bool.false_eq_true, if_false]
  split
  · rename_i hn; rw [hspan] at hn; cases hn
  · rename_i hs
    rw [hspan] at hs
    cases hs
    rfl

theorem rawAttributes_written {as : List Attribute} (h : ∀ a ∈ as, IsPlainName a.name.toList) :
    rawAttributes (as.flatMap attributeText) =
      some (as.map fun a => (a.name.toList, escape a.value.toList)) := by
  induction as with
  | nil => rw [List.flatMap_nil, rawAttributes]; rfl
  | cons a as ih =>
    rw [List.flatMap_cons, rawAttributes_attributeText (h a List.mem_cons_self),
      ih fun b hb => h b (List.mem_cons_of_mem _ hb)]
    rfl

theorem decodeAttribute_written (a : Attribute) :
    decodeAttribute (a.name.toList, escape a.value.toList) = some a := by
  simp [decodeAttribute, unescape_escape]

theorem eraseDups_eq_self {l : List (List Char)} (h : l.Nodup) : l.eraseDups = l := by
  induction l with
  | nil => rfl
  | cons x l ih =>
    obtain ⟨hx, hl⟩ := List.nodup_cons.mp h
    have hf : l.filter (fun b => !b == x) = l := by
      rw [List.filter_eq_self]
      intro b hb
      have : b ≠ x := fun he => hx (he ▸ hb)
      simpa using this
    rw [List.eraseDups_cons, hf, ih hl]

theorem attributes_written {as : List Attribute} (h : ∀ a ∈ as, IsPlainName a.name.toList)
    (hd : (as.map fun a => a.name.toList).Nodup) :
    attributes (as.flatMap attributeText) = some as := by
  have hnames : (as.map fun a => (a.name.toList, escape a.value.toList)).map (·.1) =
      as.map fun a => a.name.toList := by simp
  have hm : ∀ as : List Attribute,
      (as.map fun a => (a.name.toList, escape a.value.toList)).mapM decodeAttribute = some as := by
    intro as
    induction as with
    | nil => rfl
    | cons a as ih => rw [List.map_cons, List.mapM_cons, decodeAttribute_written, ih]; rfl
  rw [attributes, rawAttributes_written h]
  simp only [Option.bind_eq_bind, Option.bind_some, hnames, eraseDups_eq_self hd, List.length_map,
    Nat.lt_irrefl, if_false, hm]

/-! ## Tags -/

/-- The text of a tag between its angles, without the slash of an empty element. -/
def tagText (name : List Char) (as : List Attribute) : List Char :=
  name ++ as.flatMap attributeText

theorem foldl_quoteAfter_none {cs : List Char} (h : ∀ c ∈ cs, c ≠ '\"' ∧ c ≠ '\x27') :
    cs.foldl quoteAfter none = none := by
  induction cs with
  | nil => rfl
  | cons c r ih =>
    obtain ⟨h1, h2⟩ := h c List.mem_cons_self
    have hc : quoteAfter none c = none := by simp [quoteAfter, h1, h2]
    rw [List.foldl_cons, hc]
    exact ih fun x hx => h x (List.mem_cons_of_mem _ hx)

theorem foldl_quoteAfter_inside {cs : List Char} (h : ∀ c ∈ cs, c ≠ '\"') :
    cs.foldl quoteAfter (some '\"') = some '\"' := by
  induction cs with
  | nil => rfl
  | cons c r ih =>
    have hc : quoteAfter (some '\"') c = some '\"' := by
      simp [quoteAfter, h c List.mem_cons_self]
    rw [List.foldl_cons, hc]
    exact ih fun x hx => h x (List.mem_cons_of_mem _ hx)

theorem foldl_quoteAfter_plain {name : List Char} (h : IsPlainName name) :
    name.foldl quoteAfter none = none :=
  foldl_quoteAfter_none fun c hc => (h.2 c hc).2.2

theorem foldl_quoteAfter_attributeText {a : Attribute} (h : IsPlainName a.name.toList) :
    (attributeText a).foldl quoteAfter none = none := by
  have hvalue : ∀ c ∈ escape a.value.toList, c ≠ '\"' := fun c hc => (mem_escape hc).2.2.1
  have hblank : quoteAfter none ' ' = none := by decide
  have hopen : (' ' :: a.name.toList ++ '=' :: '\"' :: escape a.value.toList).foldl quoteAfter none =
      some '\"' := by
    rw [List.cons_append, List.foldl_cons, hblank, List.foldl_append, foldl_quoteAfter_plain h]
    exact foldl_quoteAfter_inside hvalue
  rw [attributeText, List.foldl_append, hopen]
  rfl

theorem foldl_quoteAfter_attributes {as : List Attribute}
    (h : ∀ a ∈ as, IsPlainName a.name.toList) :
    (as.flatMap attributeText).foldl quoteAfter none = none := by
  induction as with
  | nil => rfl
  | cons a as ih =>
    rw [List.flatMap_cons, List.foldl_append,
      foldl_quoteAfter_attributeText (h a List.mem_cons_self)]
    exact ih fun b hb => h b (List.mem_cons_of_mem _ hb)

theorem ne_close_of_mem_attributeText {a : Attribute} (h : IsPlainName a.name.toList) {c : Char}
    (hc : c ∈ attributeText a) : c ≠ '>' := by
  simp only [attributeText, List.cons_append, List.mem_cons, List.mem_append, List.not_mem_nil,
    or_false] at hc
  rcases hc with rfl | (hc | rfl | rfl | hc) | rfl
  · decide
  · exact (h.2 c hc).2.1
  · decide
  · decide
  · exact (mem_escape hc).2.1
  · decide

theorem ne_close_of_mem_tagText {name : List Char} {as : List Attribute} (hn : IsPlainName name)
    (h : ∀ a ∈ as, IsPlainName a.name.toList) {c : Char} (hc : c ∈ tagText name as) : c ≠ '>' := by
  rcases List.mem_append.mp hc with hc | hc
  · exact (hn.2 c hc).2.1
  · obtain ⟨a, ha, hc⟩ := List.mem_flatMap.mp hc
    exact ne_close_of_mem_attributeText (h a ha) hc

theorem foldl_quoteAfter_tagText {name : List Char} {as : List Attribute} (hn : IsPlainName name)
    (h : ∀ a ∈ as, IsPlainName a.name.toList) : (tagText name as).foldl quoteAfter none = none := by
  rw [tagText, List.foldl_append, foldl_quoteAfter_plain hn, foldl_quoteAfter_attributes h]

theorem spanTag_append {quote : Option Char} {text rest : List Char} (h : ∀ c ∈ text, c ≠ '>')
    (hq : text.foldl quoteAfter quote = none) :
    spanTag quote (text ++ '>' :: rest) = some (text, rest) := by
  induction text generalizing quote with
  | nil =>
    rw [List.foldl_nil] at hq
    simp [spanTag, hq]
  | cons c r ih =>
    have hc := h c List.mem_cons_self
    have hr := ih (fun x hx => h x (List.mem_cons_of_mem _ hx)) hq
    rw [List.cons_append, spanTag, if_neg (fun hc' => hc hc'.1), hr]
    rfl

theorem getLast?_tagText {name : List Char} {as : List Attribute} (h : as ≠ []) :
    (tagText name as).getLast? = some '\"' := by
  obtain ⟨as, a, rfl⟩ := List.eq_nil_or_concat as |>.resolve_left h
  have hlast : tagText name (as.concat a) = name ++ as.flatMap attributeText ++
      (' ' :: a.name.toList ++ '=' :: '\"' :: escape a.value.toList) ++ ['\"'] := by
    simp [tagText, attributeText]
  rw [hlast, List.getLast?_concat]

theorem name_of_tagText {name : List Char} {as : List Attribute} (hn : IsPlainName name)
    (h : as ≠ []) :
    (tagText name as).takeWhile (fun c => !isSpace c) = name ∧
      (tagText name as).dropWhile (fun c => !isSpace c) = as.flatMap attributeText := by
  obtain ⟨a, as, rfl⟩ := List.exists_cons_of_ne_nil h
  have hname : ∀ c ∈ name, (!isSpace c) = true := fun c hc => by rw [isSpace_of_plain hn hc]; rfl
  have hblank : (!isSpace ' ') = false := by decide
  have ht : ∃ r, (a :: as).flatMap attributeText = ' ' :: r := ⟨_, rfl⟩
  obtain ⟨r, hr⟩ := ht
  rw [tagText, hr]
  exact ⟨takeWhile_stop hname hblank, dropWhile_stop hname hblank⟩

theorem tagOf_start {name : List Char} {as : List Attribute} (hn : IsPlainName name) (h : as ≠ []) :
    tagOf (tagText name as) = .start name (as.flatMap attributeText) := by
  obtain ⟨h1, h2⟩ := name_of_tagText hn h
  simp only [tagOf, getLast?_tagText h, h1, h2]
  rfl

theorem tagOf_empty {name : List Char} {as : List Attribute} (hn : IsPlainName name) (h : as ≠ []) :
    tagOf (tagText name as ++ ['/']) = .empty name (as.flatMap attributeText) := by
  obtain ⟨h1, h2⟩ := name_of_tagText hn h
  simp only [tagOf, List.getLast?_concat, if_true, List.dropLast_concat, h1, h2]

/-! ## Lexemes -/

/-- The name of an element, whose first character begins no other markup. -/
def IsTagName (name : List Char) : Prop :=
  IsPlainName name ∧ name.head? ≠ some '!' ∧ name.head? ≠ some '/' ∧ name.head? ≠ some '?'

instance (name : List Char) : Decidable (IsTagName name) :=
  inferInstanceAs (Decidable (_ ∧ _))

theorem spanMarkup_of_tagName {name r : List Char} (h : IsTagName name) :
    spanMarkup (name ++ r) = (spanTag none (name ++ r)).map fun p => (tagOf p.1, p.2) := by
  obtain ⟨⟨hne, _⟩, h1, h2, h3⟩ := h
  obtain ⟨c, name, rfl⟩ := List.exists_cons_of_ne_nil hne
  simp only [List.head?_cons, ne_eq, Option.some.injEq] at h1 h2 h3
  rw [List.cons_append]
  unfold spanMarkup
  split
  · rename_i he; exact absurd (List.cons.inj he).1 h1
  · rename_i he; exact absurd (List.cons.inj he).1 h2
  · rename_i he; exact absurd (List.cons.inj he).1 h3
  · rfl

theorem lexemes_markup {r rest : List Char} {t : Token} (hr : r ≠ [])
    (h : spanMarkup r = some (t, rest)) : lexemes ('<' :: r) = t :: lexemes rest := by
  have he : r.isEmpty = false := by cases r with
    | nil => exact absurd rfl hr
    | cons => rfl
  rw [lexemes, if_pos rfl, he]
  simp only [Bool.false_eq_true, if_false]
  split
  · rename_i hn; rw [h] at hn; cases hn
  · rename_i hs
    rw [h] at hs
    cases hs
    rfl

theorem lexemes_tag {name text rest : List Char} (hn : IsTagName name)
    (h : ∀ x ∈ name ++ text, x ≠ '>') (hq : (name ++ text).foldl quoteAfter none = none) :
    lexemes ('<' :: (name ++ text) ++ '>' :: rest) = tagOf (name ++ text) :: lexemes rest := by
  have hs : spanMarkup (name ++ text ++ '>' :: rest) = some (tagOf (name ++ text), rest) := by
    rw [List.append_assoc, spanMarkup_of_tagName hn, ← List.append_assoc, spanTag_append h hq]
    rfl
  exact lexemes_markup (by simp [hn.1.1]) hs

/-- A start tag with attributes is one token. -/
theorem lexemes_start {name rest : List Char} {as : List Attribute} (hn : IsTagName name)
    (has : as ≠ []) (h : ∀ a ∈ as, IsPlainName a.name.toList) :
    lexemes ('<' :: tagText name as ++ '>' :: rest) =
      .start name (as.flatMap attributeText) :: lexemes rest := by
  rw [← tagOf_start hn.1 has]
  exact lexemes_tag hn (fun x hx => ne_close_of_mem_tagText hn.1 h hx)
    (foldl_quoteAfter_tagText hn.1 h)

theorem lexemes_empty {name rest : List Char} {as : List Attribute} (hn : IsTagName name)
    (has : as ≠ []) (h : ∀ a ∈ as, IsPlainName a.name.toList) :
    lexemes ('<' :: tagText name as ++ '/' :: '>' :: rest) =
      .empty name (as.flatMap attributeText) :: lexemes rest := by
  have htext : '<' :: tagText name as ++ '/' :: '>' :: rest =
      '<' :: (name ++ (as.flatMap attributeText ++ ['/'])) ++ '>' :: rest := by
    simp [tagText]
  have hslash : name ++ (as.flatMap attributeText ++ ['/']) = tagText name as ++ ['/'] := by
    simp [tagText]
  rw [htext, lexemes_tag hn, hslash, tagOf_empty hn.1 has]
  · intro x hx
    rw [hslash] at hx
    rcases List.mem_append.mp hx with hx | hx
    · exact ne_close_of_mem_tagText hn.1 h hx
    · rw [List.mem_singleton.mp hx]
      decide
  · rw [hslash, List.foldl_append, foldl_quoteAfter_tagText hn.1 h]
    decide

theorem closeName_eq_self {name : List Char} (h : ∀ c ∈ name, isSpace c = false) :
    closeName name = name := by
  have hr : name.reverse.dropWhile isSpace = name.reverse := by
    cases hm : name.reverse with
    | nil => rfl
    | cons x r =>
      have hx : x ∈ name := List.mem_reverse.mp (hm ▸ List.mem_cons_self)
      rw [List.dropWhile_cons_of_neg (by simp [h x hx])]
  rw [closeName, hr, List.reverse_reverse]

theorem lexemes_close {name rest : List Char} (hn : IsPlainName name) :
    lexemes ('<' :: ('/' :: name ++ '>' :: rest)) = .close name :: lexemes rest := by
  have hname : ∀ c ∈ name, (c != '>') = true := fun c hc => by simpa using (hn.2 c hc).2.1
  have hs : spanMarkup ('/' :: name ++ '>' :: rest) = some (.close name, rest) := by
    rw [List.cons_append]
    simp only [spanMarkup]
    rw [takeWhile_stop hname (by decide), dropWhile_stop hname (by decide),
      closeName_eq_self fun c hc => isSpace_of_plain hn hc]
    rfl
  exact lexemes_markup (List.cons_ne_nil _ _) hs

theorem lexemes_text {text rest : List Char} (hne : text ≠ []) (h : ∀ c ∈ text, c ≠ '<') :
    lexemes (text ++ '<' :: rest) = .text text :: lexemes ('<' :: rest) := by
  obtain ⟨c, r, rfl⟩ := List.exists_cons_of_ne_nil hne
  have hc : c ≠ '<' := h c List.mem_cons_self
  have hr : ∀ x ∈ r, (x != '<') = true := fun x hx => by
    simpa using h x (List.mem_cons_of_mem _ hx)
  rw [List.cons_append, lexemes, if_neg hc, takeWhile_stop hr (by decide),
    dropWhile_stop hr (by decide)]

end BusCompliance.Xml
