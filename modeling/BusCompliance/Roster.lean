/-!
# Rosters

A roster lists items by strictly increasing name, so each name stands once and two rosters with
the same items are equal. Strings are ordered by code point, which is the order of their UTF-8
bytes.
-/

namespace BusCompliance

/-- Items in the order of their names. -/
structure Roster (α : Type) (key : α → String) where
  toList : List α
  sorted : toList.Pairwise fun a b => key a < key b

namespace Roster

variable {α : Type} {key : α → String}

@[ext] theorem ext {r s : Roster α key} (h : r.toList = s.toList) : r = s := by
  cases r; cases s; cases h; rfl

instance [DecidableEq α] : DecidableEq (Roster α key) := fun r s =>
  decidable_of_iff (r.toList = s.toList) ⟨ext, fun h => h ▸ rfl⟩

/-! ## Order of names -/

theorem lt_of_not_lt_of_ne {a b : String} (h : ¬a < b) (hne : a ≠ b) : b < a := by
  rcases String.le_total a b with hab | hba
  · exact absurd (String.le_antisymm hab (String.not_lt.mp h)) hne
  · exact Decidable.byContradiction fun hn => hne (String.le_antisymm (String.not_lt.mp hn) hba)

/-! ## Operations on the list -/

/-- Put an item at its place, over an item of the same name. -/
def insertInto (key : α → String) (x : α) : List α → List α
  | [] => [x]
  | y :: ys =>
    if key x < key y then x :: y :: ys
    else if key x = key y then x :: ys
    else y :: insertInto key x ys

theorem mem_insertInto {x a : α} {l : List α} (h : a ∈ insertInto key x l) : a = x ∨ a ∈ l := by
  induction l with
  | nil => simpa [insertInto] using h
  | cons y ys ih =>
    simp only [insertInto] at h
    split at h
    · simpa using h
    · split at h
      · rcases List.mem_cons.mp h with h | h
        · exact .inl h
        · exact .inr (List.mem_cons_of_mem _ h)
      · rcases List.mem_cons.mp h with h | h
        · exact .inr (h ▸ List.mem_cons_self)
        · exact (ih h).imp id (List.mem_cons_of_mem _)

theorem sorted_insertInto (x : α) {l : List α} (h : l.Pairwise fun a b => key a < key b) :
    (insertInto key x l).Pairwise fun a b => key a < key b := by
  induction l with
  | nil => simp [insertInto]
  | cons y ys ih =>
    obtain ⟨hy, hys⟩ := List.pairwise_cons.mp h
    simp only [insertInto]
    split
    · rename_i hxy
      refine List.pairwise_cons.mpr ⟨fun a ha => ?_, h⟩
      rcases List.mem_cons.mp ha with ha | ha
      · exact ha ▸ hxy
      · exact String.lt_trans hxy (hy a ha)
    · split
      · rename_i hxy
        exact List.pairwise_cons.mpr ⟨fun a ha => hxy ▸ hy a ha, hys⟩
      · rename_i hlt hne
        refine List.pairwise_cons.mpr ⟨fun a ha => ?_, ih hys⟩
        rcases mem_insertInto ha with ha | ha
        · exact ha ▸ lt_of_not_lt_of_ne hlt hne
        · exact hy a ha

/-! ## Operations -/

def empty : Roster α key := ⟨[], .nil⟩

instance : Inhabited (Roster α key) := ⟨empty⟩

def insert (r : Roster α key) (x : α) : Roster α key :=
  ⟨insertInto key x r.toList, sorted_insertInto x r.sorted⟩

def erase (r : Roster α key) (name : String) : Roster α key :=
  ⟨r.toList.filter fun x => key x != name, r.sorted.filter _⟩

/-- The item of a name. -/
def get? (r : Roster α key) (name : String) : Option α := r.toList.find? fun x => key x == name

def contains (r : Roster α key) (name : String) : Bool := (r.get? name).isSome

def size (r : Roster α key) : Nat := r.toList.length

def names (r : Roster α key) : List String := r.toList.map key

/-- The items put in one after the other, the last of a name winning. -/
def ofList (xs : List α) : Roster α key := xs.foldl insert empty

/-! ## Look-ups -/

@[simp] theorem get?_empty (name : String) : (empty : Roster α key).get? name = none := rfl

theorem find?_insertInto (x : α) (name : String) (l : List α) :
    (insertInto key x l).find? (fun a => key a == name) =
      if key x = name then some x else l.find? (fun a => key a == name) := by
  induction l with
  | nil => by_cases h : key x = name <;> simp [insertInto, h]
  | cons y ys ih =>
    simp only [insertInto]
    split
    · by_cases h : key x = name <;> simp [h]
    · split
      · rename_i hxy
        by_cases h : key x = name
        · simp [h]
        · simp [h, ← hxy]
      · rename_i hne
        by_cases h : key y = name
        · simp [h, show key x ≠ name from h ▸ hne]
        · simp [h, ih]

theorem get?_insert (r : Roster α key) (x : α) (name : String) :
    (r.insert x).get? name = if key x = name then some x else r.get? name :=
  find?_insertInto x name r.toList

theorem key_of_get? {r : Roster α key} {name : String} {x : α} (h : r.get? name = some x) :
    key x = name := by
  simpa using List.find?_some h

theorem get?_erase (r : Roster α key) (gone name : String) :
    (r.erase gone).get? name = if gone = name then none else r.get? name := by
  simp only [get?, erase, List.find?_filter]
  by_cases h : gone = name
  · subst h
    simp
  · simp only [h, if_false]
    congr 1
    funext x
    by_cases hx : key x = name
    · simp [hx, Ne.symm h]
    · simp [hx]

theorem get?_foldl_insert {x : α} {name : String} {xs : List α} {r : Roster α key}
    (hx : x ∈ xs ∨ r.get? name = some x) (hname : key x = name)
    (honly : ∀ y ∈ xs, key y = name → y = x) : (xs.foldl insert r).get? name = some x := by
  induction xs generalizing r with
  | nil => simpa using hx
  | cons y ys ih =>
    refine ih ?_ fun z hz => honly z (List.mem_cons_of_mem y hz)
    by_cases hy : key y = name
    · have heq := honly y List.mem_cons_self hy
      exact .inr (by rw [get?_insert, if_pos hy, heq])
    · rcases hx with hx | hx
      · rcases List.mem_cons.mp hx with rfl | hx
        · exact absurd hname hy
        · exact .inl hx
      · exact .inr (by rw [get?_insert, if_neg hy, hx])

/-- An item that shares its name with no other is found by it. -/
theorem get?_ofList {x : α} {xs : List α} (hx : x ∈ xs)
    (honly : ∀ y ∈ xs, key y = key x → y = x) :
    (ofList xs : Roster α key).get? (key x) = some x :=
  get?_foldl_insert (.inl hx) rfl honly

theorem mem_of_get? {r : Roster α key} {name : String} {x : α} (h : r.get? name = some x) :
    x ∈ r.toList :=
  List.mem_of_find?_eq_some h

/-- Every item is found by its name. -/
theorem get?_of_mem {r : Roster α key} {x : α} (h : x ∈ r.toList) : r.get? (key x) = some x := by
  obtain ⟨items, hsorted⟩ := r
  unfold get?
  induction items with
  | nil => cases h
  | cons y ys ih =>
    obtain ⟨hy, hys⟩ := List.pairwise_cons.mp hsorted
    rcases List.mem_cons.mp h with rfl | hx
    · simp
    · have hne : key y ≠ key x := fun he => String.lt_irrefl _ (he ▸ hy x hx)
      simp [hne, ih hys hx]

/-- Rosters that find the same by every name are equal. -/
theorem ext_get? {r s : Roster α key} (h : ∀ name, r.get? name = s.get? name) : r = s := by
  have hmem (x : α) : x ∈ r.toList ↔ x ∈ s.toList := by
    constructor
    · intro hx
      exact mem_of_get? ((h (key x)).symm.trans (get?_of_mem hx))
    · intro hx
      exact mem_of_get? ((h (key x)).trans (get?_of_mem hx))
  have hnodup (t : Roster α key) : t.toList.Nodup := by
    refine t.sorted.imp ?_
    rintro a b hlt rfl
    exact String.lt_irrefl _ hlt
  refine ext (((List.perm_ext_iff_of_nodup (hnodup r) (hnodup s)).mpr hmem).eq_of_pairwise ?_
    r.sorted s.sorted)
  intro a b _ _ hab hba
  exact absurd hba (String.lt_asymm hab)

theorem mem_of_mem_foldl_insert {x : α} {xs : List α} {r : Roster α key}
    (h : x ∈ (xs.foldl insert r).toList) : x ∈ r.toList ∨ x ∈ xs := by
  induction xs generalizing r with
  | nil => exact .inl h
  | cons y ys ih =>
    rcases ih h with hr | hys
    · rcases mem_insertInto hr with rfl | hr
      · exact .inr List.mem_cons_self
      · exact .inl hr
    · exact .inr (List.mem_cons_of_mem y hys)

theorem mem_of_mem_ofList {x : α} {xs : List α} (h : x ∈ (ofList xs : Roster α key).toList) :
    x ∈ xs := by
  rcases mem_of_mem_foldl_insert h with hnil | hxs
  · exact absurd hnil List.not_mem_nil
  · exact hxs

/-! ## Rebuilding -/

theorem insertInto_last {x : α} {l : List α} (h : ∀ a ∈ l, key a < key x) :
    insertInto key x l = l ++ [x] := by
  induction l with
  | nil => rfl
  | cons y ys ih =>
    have hy := h y List.mem_cons_self
    have hne : key x ≠ key y := fun he => String.lt_irrefl _ (he ▸ hy)
    rw [insertInto, if_neg (String.lt_asymm hy), if_neg hne,
      ih fun a ha => h a (List.mem_cons_of_mem _ ha)]
    rfl

/-- Items that come after those of a roster, in their order, are put behind them. -/
theorem toList_foldl_insert (xs : List α) (r : Roster α key)
    (h : (r.toList ++ xs).Pairwise fun a b => key a < key b) :
    (xs.foldl insert r).toList = r.toList ++ xs := by
  induction xs generalizing r with
  | nil => simp
  | cons x xs ih =>
    have hlast : (r.insert x).toList = r.toList ++ [x] :=
      insertInto_last fun a ha => (List.pairwise_append.mp h).2.2 a ha x List.mem_cons_self
    rw [List.foldl_cons, ih (r.insert x) (by rw [hlast]; simpa using h), hlast]
    simp

/-- The items of a roster make up that roster again. -/
theorem ofList_toList (r : Roster α key) : ofList r.toList = r :=
  ext (toList_foldl_insert r.toList empty (by simpa [empty] using r.sorted))

end Roster

end BusCompliance
