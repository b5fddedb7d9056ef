import BusCompliance.Json.Document

/-!
# Written documents are read as their values

The compact text of a value of strings, arrays and objects is read as that value, as long as it is
not nested too deep. The text is first cut into the tokens of the value, then the reader of tokens
delivers the value to whatever frame is waiting for it.
-/

namespace BusCompliance.Json

/-! ## Strings -/

theorem fourDigits?_control {n : Nat} (h : n < 0x20) :
    fourDigits? '0' '0' (Hex.digit (n / 16)) (Hex.digit (n % 16)).toLower = some n := by
  have all : ∀ n < 0x20,
      fourDigits? '0' '0' (Hex.digit (n / 16)) (Hex.digit (n % 16)).toLower = some n := by decide
  exact all n h

theorem stringUnits_plain {c : Char} (hquote : c ≠ '\"') (hslash : c ≠ '\\')
    (hlow : ¬c.toNat < 0x20) (r : List Char) :
    stringUnits (c :: r) = (stringUnits r).map (before c.toNat) := by
  rw [stringUnits.eq_def]
  split
  · rename_i h
    cases h
  · rename_i h
    cases h
    exact absurd rfl hquote
  · rename_i h
    cases h
    exact absurd rfl hslash
  · rename_i h
    cases h
    exact absurd rfl hslash
  · rename_i h
    cases h
    rw [if_neg hlow]

theorem stringUnits_escapeChar (c : Char) (r : List Char) :
    stringUnits (escapeChar c ++ r) = (stringUnits r).map (before c.toNat) := by
  unfold escapeChar
  split
  · subst_vars; simp [stringUnits, escaped?]
  split
  · subst_vars; simp [stringUnits, escaped?]
  split
  · subst_vars; simp [stringUnits, escaped?]
  split
  · subst_vars; simp [stringUnits, escaped?]
  split
  · subst_vars; simp [stringUnits, escaped?]
  split
  · subst_vars; simp [stringUnits, escaped?]
  split
  · subst_vars; simp [stringUnits, escaped?]
  split
  · rename_i hlow
    simp only [List.cons_append, List.nil_append, stringUnits, fourDigits?_control hlow,
      Option.bind_some]
  · rename_i hquote hslash _ _ _ _ _ hlow
    exact stringUnits_plain hquote hslash hlow r

theorem stringUnits_quoted (cs rest : List Char) :
    stringUnits (cs.flatMap escapeChar ++ '\"' :: rest) = some (cs.map Char.toNat, rest) := by
  induction cs with
  | nil => simp [stringUnits]
  | cons c cs ih =>
    rw [List.flatMap_cons, List.append_assoc, stringUnits_escapeChar, ih]
    rfl

theorem not_half (c : Char) : isFirstHalf c.toNat = false ∧ isSecondHalf c.toNat = false := by
  have hv : c.toNat < 0xD800 ∨ 0xDFFF < c.toNat ∧ c.toNat < 0x110000 := c.valid
  simp only [isFirstHalf, isSecondHalf, Bool.and_eq_false_iff, decide_eq_false_iff_not]
  omega

theorem characters?_map_toNat (cs : List Char) : characters? (cs.map Char.toNat) = some cs := by
  induction cs with
  | nil => rfl
  | cons c cs ih =>
    obtain ⟨h1, h2⟩ := not_half c
    unfold characters?
    simp only [List.map_cons]
    rw [h1, h2, ih]
    simp

theorem textOf_map_toNat (s : String) : textOf (s.toList.map Char.toNat) = .text (some s) := by
  rw [textOf, characters?_map_toNat, Option.map_some, String.ofList_toList]

/-! ## Tokens of a text -/

theorem tokens_quote (s : String) (rest : List Char) :
    tokens (quote s ++ rest) = (tokens rest).map (.text (some s) :: ·) := by
  have hunits : stringUnits (s.toList.flatMap escapeChar ++ '\"' :: rest) =
      some (s.toList.map Char.toNat, rest) := stringUnits_quoted s.toList rest
  have htext : quote s ++ rest = '\"' :: (s.toList.flatMap escapeChar ++ '\"' :: rest) := by
    simp [quote]
  have hspace : isSpace '\"' = false := by decide
  rw [htext, tokens, hspace]
  simp only [Bool.false_eq_true, if_false, if_true]
  split
  · rename_i hn; rw [hunits] at hn; cases hn
  · rename_i hs
    rw [hunits] at hs
    cases hs
    rw [textOf_map_toNat]

theorem tokens_mark {c : Char} {t : Token} (h : mark? c = some t) (rest : List Char) :
    tokens (c :: rest) = (tokens rest).map (t :: ·) := by
  have hspace : isSpace c = false ∧ c ≠ '\"' := by
    refine ⟨?_, ?_⟩
    · rw [Bool.eq_false_iff]
      intro hs
      simp only [isSpace, Bool.or_eq_true, decide_eq_true_eq] at hs
      rcases hs with ((rfl | rfl) | rfl) | rfl <;> simp [mark?] at h
    · rintro rfl
      simp [mark?] at h
  rw [tokens, hspace.1, if_neg hspace.2]
  simp only [Bool.false_eq_true, if_false]
  split
  · rename_i ht
    rw [h] at ht
    cases ht
    rfl
  · rename_i ht; rw [h] at ht; cases ht

/-! ## Tokens of a value -/

mutual

/-- The tokens that the compact text of a value is cut into. -/
def Value.lexemes : Value → List Token
  | .string s => [.text (some s)]
  | .array items => .openArray :: itemLexemes items ++ [.closeArray]
  | .object members => .openObject :: memberLexemes members ++ [.closeObject]
  | v => [.word (some v)]

def itemLexemes : List Value → List Token
  | [] => []
  | [v] => v.lexemes
  | v :: vs => v.lexemes ++ .comma :: itemLexemes vs

def memberLexemes : List (String × Value) → List Token
  | [] => []
  | [(k, v)] => .text (some k) :: .colon :: v.lexemes
  | (k, v) :: ms => .text (some k) :: .colon :: v.lexemes ++ .comma :: memberLexemes ms

end

/-- The value holds strings only and is nested at most so deep. -/
inductive Value.Fits : Nat → Value → Prop
  | string {n : Nat} (s : String) : Fits n (.string s)
  | array {n : Nat} {items : List Value} (h : ∀ v ∈ items, Fits n v) : Fits (n + 1) (.array items)
  | object {n : Nat} {members : List (String × Value)} (h : ∀ m ∈ members, Fits n m.2) :
      Fits (n + 1) (.object members)

/-- The tokens of the compact text of the value are its own. -/
def Value.IsCut (v : Value) : Prop :=
  ∀ rest, tokens (v.render ++ rest) = (tokens rest).map (v.lexemes ++ ·)

theorem tokens_renderItems {vs : List Value} (h : ∀ v ∈ vs, v.IsCut) (rest : List Char) :
    tokens (renderItems vs ++ rest) = (tokens rest).map (itemLexemes vs ++ ·) := by
  induction vs with
  | nil => simp [renderItems, itemLexemes]
  | cons v vs ih =>
    have hv := h v List.mem_cons_self
    cases vs with
    | nil => simpa only [renderItems, itemLexemes] using hv rest
    | cons w vs =>
      have hvs := ih fun u hu => h u (List.mem_cons_of_mem v hu)
      simp only [renderItems, itemLexemes, List.append_assoc, List.cons_append]
      rw [hv, tokens_mark (t := .comma) rfl, hvs]
      simp [Function.comp_def]

theorem tokens_renderMembers {ms : List (String × Value)} (h : ∀ m ∈ ms, m.2.IsCut)
    (rest : List Char) :
    tokens (renderMembers ms ++ rest) = (tokens rest).map (memberLexemes ms ++ ·) := by
  induction ms with
  | nil => simp [renderMembers, memberLexemes]
  | cons m ms ih =>
    obtain ⟨k, v⟩ := m
    have hv := h (k, v) List.mem_cons_self
    cases ms with
    | nil =>
      simp only [renderMembers, memberLexemes, List.append_assoc, List.cons_append]
      rw [tokens_quote, tokens_mark (t := .colon) rfl, hv]
      simp [Function.comp_def]
    | cons w ms =>
      have hms := ih fun u hu => h u (List.mem_cons_of_mem (k, v) hu)
      simp only [renderMembers, memberLexemes, List.append_assoc, List.cons_append]
      rw [tokens_quote, tokens_mark (t := .colon) rfl, hv, tokens_mark (t := .comma) rfl, hms]
      simp [Function.comp_def]

theorem Value.Fits.isCut {n : Nat} {v : Value} (h : v.Fits n) : v.IsCut := by
  induction h with
  | string s =>
    intro rest
    simp only [Value.render, Value.lexemes]
    exact tokens_quote s rest
  | array _ ih =>
    intro rest
    simp only [Value.render, Value.lexemes, List.cons_append, List.append_assoc]
    rw [tokens_mark (t := .openArray) rfl, tokens_renderItems ih,
      tokens_mark (t := .closeArray) rfl]
    simp [Function.comp_def]
  | object _ ih =>
    intro rest
    simp only [Value.render, Value.lexemes, List.cons_append, List.append_assoc]
    rw [tokens_mark (t := .openObject) rfl, tokens_renderMembers ih,
      tokens_mark (t := .closeObject) rfl]
    simp [Function.comp_def]

/-! ## Reading the tokens -/

/-- The tokens of the value, wherever it may stand, deliver it to the open frames. -/
def Value.IsDelivered (v : Value) (frames : List Frame) : Prop :=
  ∀ ts, finish .full (.running frames .value) (v.lexemes ++ ts) = finish .full (deliver v frames) ts

theorem finish_firstItem {n : Nat} {v : Value} (h : v.Fits n) (items : List Value)
    (fs : List Frame) (ts : List Token) :
    finish .full (.running (.array items :: fs) .valueOrClose) (v.lexemes ++ ts) =
      finish .full (.running (.array items :: fs) .value) (v.lexemes ++ ts) := by
  cases h <;> rfl

theorem finish_items {fs : List Frame} {vs : List Value} {v : Value} {done : List Value}
    (h : ∀ u ∈ v :: vs, ∀ items, u.IsDelivered (.array items :: fs)) (ts : List Token) :
    finish .full (.running (.array done :: fs) .value)
        (itemLexemes (v :: vs) ++ .closeArray :: ts) =
      finish .full (deliver (.array (done.reverse ++ v :: vs)) fs) ts := by
  -- `done` holds the items that are in the frame already, the last one first
  induction vs generalizing v done with
  | nil =>
    rw [itemLexemes, h v List.mem_cons_self]
    simp [deliver, finish, advance, close]
  | cons w vs ih =>
    have hrest := @ih w (v :: done) fun u hu => h u (List.mem_cons_of_mem v hu)
    simp only [itemLexemes, List.append_assoc, List.cons_append]
    rw [h v List.mem_cons_self, deliver]
    simp only [finish, advance, Option.bind_some]
    rw [hrest, List.reverse_cons, List.append_assoc, List.singleton_append]

theorem finish_members {fs : List Frame} {ms : List (String × Value)} {m : String × Value}
    {done : List (String × Value)} {key : String}
    (h : ∀ u ∈ m :: ms, ∀ members key, u.2.IsDelivered (.object members key :: fs))
    (ts : List Token) :
    finish .full (.running (.object done key :: fs) .key)
        (memberLexemes (m :: ms) ++ .closeObject :: ts) =
      finish .full (deliver (.object (done.reverse ++ m :: ms)) fs) ts := by
  induction ms generalizing m done key with
  | nil =>
    obtain ⟨k, v⟩ := m
    simp only [memberLexemes, List.cons_append, finish, advance, takeKey, Care.key?,
      Option.map_some, Option.bind_some]
    rw [h (k, v) List.mem_cons_self]
    simp [deliver, finish, advance, close]
  | cons w ms ih =>
    obtain ⟨k, v⟩ := m
    have hrest := @ih w ((k, v) :: done) k
      fun u hu => h u (List.mem_cons_of_mem (k, v) hu)
    simp only [memberLexemes, List.append_assoc, List.cons_append, finish, advance, takeKey,
      Care.key?, Option.map_some, Option.bind_some]
    rw [h (k, v) List.mem_cons_self, deliver]
    simp only [finish, advance, Option.bind_some]
    rw [hrest, List.reverse_cons, List.append_assoc, List.singleton_append]

theorem finish_firstMember (m : String × Value) (ms : List (String × Value)) (fs : List Frame)
    (ts : List Token) :
    finish .full (.running (.object [] "" :: fs) .keyOrClose) (memberLexemes (m :: ms) ++ ts) =
      finish .full (.running (.object [] "" :: fs) .key) (memberLexemes (m :: ms) ++ ts) := by
  obtain ⟨k, v⟩ := m
  cases ms <;> rfl

theorem Value.Fits.isDelivered {n : Nat} {v : Value} (h : v.Fits n) {frames : List Frame}
    (hdepth : frames.length + n ≤ depthLimit) : v.IsDelivered frames := by
  induction h generalizing frames with
  | string s =>
    intro ts
    simp [lexemes, finish, advance, startValue, Care.value?]
  | @array n items hitems ih =>
    intro ts
    have hroom : frames.length < depthLimit := by omega
    simp only [lexemes, List.cons_append, List.append_assoc, finish, advance, startValue,
      openFrame, hroom, or_true, if_true, Option.bind_some]
    cases items with
    | nil => simp [itemLexemes, finish, advance, close]
    | cons v vs =>
      have hfirst : ∃ r, itemLexemes (v :: vs) = v.lexemes ++ r := by
        cases vs with
        | nil => exact ⟨[], (List.append_nil _).symm⟩
        | cons w vs => exact ⟨_, rfl⟩
      obtain ⟨r, hr⟩ := hfirst
      -- behind the opening bracket a closing one would be allowed too, but no value begins with it
      rw [hr, List.append_assoc, finish_firstItem (hitems v List.mem_cons_self),
        ← List.append_assoc, ← hr, List.nil_append]
      refine finish_items ?_ ts
      intro u hu items
      apply ih u hu
      simp only [List.length_cons]
      omega
  | @object n members hmembers ih =>
    intro ts
    have hroom : frames.length < depthLimit := by omega
    simp only [lexemes, List.cons_append, List.append_assoc, finish, advance, startValue,
      openFrame, hroom, or_true, if_true, Option.bind_some]
    cases members with
    | nil => simp [memberLexemes, finish, advance, close]
    | cons m ms =>
      rw [finish_firstMember, List.nil_append]
      refine finish_members ?_ ts
      intro u hu members key
      apply ih u hu
      simp only [List.length_cons]
      omega

/-- The compact text of a value is read as that value. -/
theorem parse?_render {v : Value} (h : v.Fits depthLimit) : parse? v.render = some v := by
  have hcut : tokens v.render = some v.lexemes := by
    have hnil := h.isCut []
    rw [List.append_nil] at hnil
    rw [hnil, tokens]
    simp
  have hfinish : takeValue .full v.lexemes = some (v, []) := by
    have hdelivered : v.IsDelivered [] := h.isDelivered (by simp)
    have hend := hdelivered []
    rw [List.append_nil] at hend
    rw [takeValue, hend]
    rfl
  simp only [parse?, hcut, Option.bind_some, hfinish]

/-! ## Members -/

/-- A member whose name no other shares in any case is found by that name. -/
theorem member?_of_mem {members : List (String × Value)} {k name : String} {v : Value}
    (hdistinct : (members.map fun m => Text.upper m.1).Nodup) (hmem : (k, v) ∈ members)
    (hname : Text.upper k = Text.upper name) : member? members name = some v := by
  -- the roster orders the members by their names, so what is found may stand anywhere in it
  have honly : ∀ a ∈ members, ∀ b ∈ members, Text.upper a.1 = Text.upper b.1 → a = b := by
    have hpairs := List.pairwise_map.mp hdistinct
    refine List.Pairwise.forall_of_forall_of_flip (fun _ _ _ => rfl) ?_ ?_
    · exact hpairs.imp fun hne heq => absurd heq hne
    · exact hpairs.imp fun hne heq => absurd heq.symm hne
  have hlisted : (k, v) ∈ (sortedMembers members).toList := by
    have hget : (sortedMembers members).get? k = some (k, v) :=
      Roster.get?_ofList hmem fun m hm hk => honly m hm _ hmem (congrArg Text.upper hk)
    exact List.mem_of_find?_eq_some hget
  obtain ⟨found, hfound⟩ : ∃ found,
      (sortedMembers members).toList.find? (fun m => Text.sameLetters m.1 name) = some found := by
    apply Option.isSome_iff_exists.mp
    exact List.find?_isSome.mpr ⟨(k, v), hlisted, (Text.sameLetters_iff k name).mpr hname⟩
  have hsame : Text.sameLetters found.1 name = true := by simpa using List.find?_some hfound
  have hletters := (Text.sameLetters_iff found.1 name).mp hsame
  have hfoundMem := Roster.mem_of_mem_ofList (List.mem_of_find?_eq_some hfound)
  have heq := honly found hfoundMem (k, v) hmem (hletters.trans hname.symm)
  rw [member?, hfound, heq]
  rfl

theorem member?_absent {members : List (String × Value)} {name : String}
    (h : Text.upper name ∉ members.map fun m => Text.upper m.1) : member? members name = none := by
  rw [member?, Option.map_eq_none_iff, List.find?_eq_none]
  intro m hm hletters
  refine h (List.mem_map.mpr ⟨m, Roster.mem_of_mem_ofList hm, ?_⟩)
  exact (Text.sameLetters_iff m.1 name).mp hletters

end BusCompliance.Json
