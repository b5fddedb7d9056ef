import BusCompliance.Proofs.Registry.Loaded
import BusCompliance.Registry.Deduction

/-!
# Refined ids

The fields of the highest header make up the id of a message. The highest level that lists this id
refines it, entry by entry. The headers of the levels below make up no ids of their own, so a message
without a field of the highest header has none.
-/

namespace BusCompliance

/-- What the entry of an id at a level makes up for a message. -/
def Directory.value? (d : Directory) (m : Message) (id : String) (n : Nat) : Option String :=
  (d.entry? id n).bind fun e => Registry.joinValues m (Registry.definitionOf d e).fields

/-- The directory makes up another id at a level. -/
def Directory.Replaces (d : Directory) (m : Message) (n : Nat) (id next : String) : Prop :=
  d.value? m id n = some next ∧ next ≠ id

/-- An id is replaced at a level while there is another one, but so many times at most. -/
inductive Directory.Refines (d : Directory) (m : Message) (n : Nat) : Nat → String → String → Prop
  | spent {id : String} : Refines d m n 0 id id
  | settled {times : Nat} {id : String} (h : ∀ next, ¬d.Replaces m n id next) :
      Refines d m n times id id
  | replaced {times : Nat} {id next last : String} (h : d.Replaces m n id next)
      (hrest : Refines d m n times next last) : Refines d m n (times + 1) id last

/-- The highest level up to the top that lists an id. -/
structure Directory.IsHighestEntry (d : Directory) (top : Nat) (id : String) (n : Nat) : Prop where
  within : n ≤ top
  listed : (d.entry? id n).isSome = true
  highest : ∀ k, n < k → k ≤ top → d.entry? id k = none

/-- The highest level up to the top that lists the id which its own header makes up. -/
structure Directory.IsOwnBase (d : Directory) (m : Message) (top n : Nat) (base : String) :
    Prop where
  within : n ≤ top
  made : d.value? m headerId n = some base
  listed : (d.entry? base n).isSome = true
  highest : ∀ k, n < k → k ≤ top → ∀ other, d.value? m headerId k = some other →
    d.entry? other k = none

namespace Directory

variable {d : Directory} {m : Message} {top n : Nat} {base : String}

/-- Where the headers above a level make up the same id, no level above lists it. -/
theorem IsOwnBase.isHighestEntry (h : d.IsOwnBase m top n base)
    (hsame : ∀ k, n < k → k ≤ top → d.value? m headerId k = some base) :
    d.IsHighestEntry top base n :=
  ⟨h.within, h.listed, fun k hk htop => h.highest k hk htop base (hsame k hk htop)⟩

theorem IsOwnBase.value?_top (h : d.IsOwnBase m top n base)
    (hsame : ∀ k, n < k → k ≤ top → d.value? m headerId k = some base) :
    d.value? m headerId top = some base := by
  rcases Nat.lt_or_eq_of_le h.within with hlt | heq
  · exact hsame top hlt (Nat.le_refl _)
  · rw [← heq]
    exact h.made

end Directory

namespace Registry

variable {source : Source} {version n : Nat} {level : SchemaLevel} {r : Registry}
  {directory : Directory} {names : List String} {ps : List Placed} {m : Message}
  {id base last : String}

/-! ## Levels from the top -/

theorem find?_range_reverse {p : Nat → Bool} {k : Nat} : (List.range k).reverse.find? p = some n ↔
    n < k ∧ p n = true ∧ ∀ j, n < j → j < k → p j = false := by
  induction k with
  | zero => simp
  | succ k ih =>
    rw [List.range_succ, List.reverse_append, List.reverse_singleton, List.singleton_append,
      List.find?_cons]
    cases hk : p k with
    | true =>
      constructor
      · rintro ⟨⟩
        exact ⟨Nat.lt_succ_self _, hk, fun j hlt hle => by omega⟩
      · rintro ⟨hlt, -, hrest⟩
        rcases Nat.lt_succ_iff_lt_or_eq.mp hlt with hlt | rfl
        · cases hk.symm.trans (hrest k hlt (Nat.lt_succ_self k))
        · rfl
    | false =>
      simp only [ih]
      constructor
      · rintro ⟨hlt, hn, hrest⟩
        refine ⟨Nat.lt_succ_of_lt hlt, hn, ?_⟩
        intro j hj hle
        rcases Nat.lt_succ_iff_lt_or_eq.mp hle with hle | rfl
        · exact hrest j hj hle
        · exact hk
      · rintro ⟨hlt, hn, hrest⟩
        rcases Nat.lt_succ_iff_lt_or_eq.mp hlt with hlt | rfl
        · exact ⟨hlt, hn, fun j hj hle => hrest j hj (Nat.lt_succ_of_lt hle)⟩
        · cases hk.symm.trans hn

/-! ## Entries of a load -/

theorem LoadedFrom.value?_eq (h : LoadedFrom source version level directory names ps r)
    (hn : n ≤ level.value) (m : Message) (id : String) :
    ((r.definition? id n).bind fun d => joinValues m d.fields) = directory.value? m id n := by
  unfold Directory.value?
  rw [h.definition?_eq hn, Option.bind_map]
  rfl

theorem LoadedFrom.refine_settled (h : LoadedFrom source version level directory names ps r)
    (hn : n ≤ level.value) (hsettled : ∀ next, ¬directory.Replaces m n id next) (times : Nat) :
    r.refine m n times id = id := by
  cases times with
  | zero => rfl
  | succ times =>
    unfold refine
    rw [h.value?_eq hn]
    cases hvalue : directory.value? m id n with
    | none => rfl
    | some next =>
      have hsame : next = id := Decidable.byContradiction fun hne => hsettled next ⟨hvalue, hne⟩
      exact if_pos hsame

theorem LoadedFrom.refine_replaced (h : LoadedFrom source version level directory names ps r)
    (hn : n ≤ level.value) {next : String} (hreplaces : directory.Replaces m n id next)
    (times : Nat) : r.refine m n (times + 1) id = r.refine m n times next := by
  rw [refine, h.value?_eq hn, hreplaces.1]
  exact if_neg hreplaces.2

theorem LoadedFrom.refine_eq_iff (h : LoadedFrom source version level directory names ps r)
    (hn : n ≤ level.value) {times : Nat} :
    r.refine m n times id = last ↔ directory.Refines m n times id last := by
  constructor
  · rintro rfl
    induction times generalizing id with
    | zero => exact .spent
    | succ times ih =>
      by_cases hmore : ∃ next, directory.Replaces m n id next
      · obtain ⟨next, hreplaces⟩ := hmore
        rw [h.refine_replaced hn hreplaces]
        exact .replaced hreplaces ih
      · have hsettled := not_exists.mp hmore
        rw [h.refine_settled hn hsettled]
        exact .settled hsettled
  · intro hrefines
    induction hrefines with
    | spent => rfl
    | settled hsettled => exact h.refine_settled hn hsettled _
    | replaced hreplaces _ ih => rw [h.refine_replaced hn hreplaces, ih]

/-! ## Ids by fields -/

theorem LoadedFrom.deduceFromFields_eq (h : LoadedFrom source version level directory names ps r)
    (m : Message) : r.deduceFromFields m =
      (directory.value? m headerId level.value).map fun base =>
        ((r.levelsDown.find? fun n => (r.definition? base n).isSome).elim base fun n =>
          r.refine m n maxRefinements base) := by
  unfold deduceFromFields
  rw [← h.value?_eq (Nat.le_refl level.value), h.level_eq]
  cases r.definition? headerId level.value with
  | none => rfl
  | some header =>
    simp only [Option.bind_eq_bind, Option.bind_some]
    cases joinValues m header.fields with
    | none => rfl
    | some base => rfl

theorem LoadedFrom.find?_levelsDown_iff
    (h : LoadedFrom source version level directory names ps r) :
    (r.levelsDown.find? fun n => (r.definition? base n).isSome) = some n ↔
      directory.IsHighestEntry level.value base n := by
  have hlisted {k : Nat} (hk : k ≤ level.value) :
      (r.definition? base k).isSome = (directory.entry? base k).isSome := by
    rw [h.definition?_eq hk, Option.isSome_map]
  unfold levelsDown
  rw [find?_range_reverse, h.level_eq]
  constructor
  · rintro ⟨hlt, hn, hrest⟩
    have hle := Nat.le_of_lt_succ hlt
    refine ⟨hle, hlisted hle ▸ hn, ?_⟩
    intro k hk hktop
    have hnone := hrest k hk (Nat.lt_succ_of_le hktop)
    rwa [hlisted hktop, Option.isSome_eq_false_iff, Option.isNone_iff_eq_none] at hnone
  · rintro ⟨hle, hn, hrest⟩
    refine ⟨Nat.lt_succ_of_le hle, (hlisted hle).trans hn, ?_⟩
    intro k hk hlt
    have hktop := Nat.le_of_lt_succ hlt
    rw [hlisted hktop, hrest k hk hktop]
    rfl

/-- The fields of a message make up an id exactly if the header of the highest level does. The id is
refined at the highest level that lists it. So each level starts from its own header only where this
makes up the same id as the headers above it. -/
theorem deduceFromFields_loaded {r₀ : Registry}
    (hload : (load source version level).outcome = .ok r₀)
    (hdirectory : (source.readDirectory version).bind Directory.ofText = .ok directory)
    (learns : Bool) (m : Message) :
    let r := r₀.withLearning learns
    (r.deduceFromFields m = none ↔ directory.value? m headerId level.value = none) ∧
    (∀ base, directory.value? m headerId level.value = some base →
      ((∀ n ≤ level.value, directory.entry? base n = none) → r.deduceFromFields m = some base) ∧
      ∀ n, directory.IsHighestEntry level.value base n → ∀ id,
        r.deduceFromFields m = some id ↔ directory.Refines m n maxRefinements base id) ∧
    ∀ n base, directory.IsOwnBase m level.value n base →
      (∀ k, n < k → k ≤ level.value → directory.value? m headerId k = some base) →
      ∀ id, r.deduceFromFields m = some id ↔ directory.Refines m n maxRefinements base id := by
  intro r
  obtain ⟨directory', names, ps, hmade⟩ := exists_loadedFrom hload
  obtain ⟨texts, hdirectory', -⟩ := hmade.reads
  cases hdirectory.symm.trans hdirectory'
  have hdeduced := (hmade.withLearning learns).deduceFromFields_eq m
  have hrefined (base : String) (hbase : directory.value? m headerId level.value = some base)
      (n : Nat) (hn : directory.IsHighestEntry level.value base n) (id : String) :
      r.deduceFromFields m = some id ↔ directory.Refines m n maxRefinements base id := by
    rw [hdeduced, hbase, Option.map_some, (hmade.withLearning learns).find?_levelsDown_iff.mpr hn,
      Option.some.injEq]
    exact (hmade.withLearning learns).refine_eq_iff hn.within
  refine ⟨?_, ?_, ?_⟩
  · rw [hdeduced, Option.map_eq_none_iff]
  · refine fun base hbase => ⟨?_, hrefined base hbase⟩
    intro hunlisted
    have hnone : (r.levelsDown.find? fun n => (r.definition? base n).isSome) = none := by
      refine Option.eq_none_iff_forall_ne_some.mpr ?_
      intro n hn
      have hhighest := (hmade.withLearning learns).find?_levelsDown_iff.mp hn
      have hlisted := hhighest.listed
      rw [hunlisted n hhighest.within] at hlisted
      cases hlisted
    rw [hdeduced, hbase, Option.map_some, hnone]
    rfl
  · intro n base hown hsame
    exact hrefined base (hown.value?_top hsame) n (hown.isHighestEntry hsame)

/-- A source of two levels. The upper header makes up ids of one more field, and the lower level
refines the id A by the field V. -/
def deepenedSource : Source := .inline
  ("levels=[\x7blevel=0,name=\"L\"\x7d,\x7blevel=1,name=\"M\"\x7d]\n" ++
    "schemas=[\x7bid=\"HEADER\",level=0,definition=[\"T\"]\x7d," ++
    "\x7bid=\"A\",level=0,definition=[\"T\",\"V\"],definition_only=true\x7d," ++
    "\x7bid=\"HEADER\",level=1,definition=[\"T\",\"U\"]\x7d]")
  [("h", "id=\"HEADER\"\nlevel=\"L\""), ("g", "id=\"HEADER\"\nlevel=\"M\"")]

/-- A message with the fields of the lower header, and without the field U. -/
def shallow : Message := (messageOf "A").add ⟨"V", .string "B", by decide⟩

/-- What that source has for a directory. -/
def deepened : Directory where
  levels := [⟨0, "L"⟩, ⟨1, "M"⟩]
  schemas := [⟨headerId, 0, ["T"], none, false⟩, ⟨"A", 0, ["T", "V"], none, true⟩,
    ⟨headerId, 1, ["T", "U"], none, false⟩]

theorem readDirectory_deepenedSource :
    (deepenedSource.readDirectory 201900).bind Directory.ofText = .ok deepened := by
  decide +kernel

theorem refines_deepened : deepened.Refines shallow 0 maxRefinements "A" "A.B" := by
  have hreplaces : deepened.Replaces shallow 0 "A" "A.B" := ⟨by decide +kernel, by decide⟩
  refine .replaced hreplaces (.settled ?_)
  rintro next ⟨hvalue, -⟩
  have hnone : deepened.value? shallow "A.B" 0 = none := by decide +kernel
  cases hnone.symm.trans hvalue

theorem isOwnBase_deepened {top : Nat} (htop : top ≤ 1) :
    deepened.IsOwnBase shallow top 0 "A" := by
  refine ⟨Nat.zero_le top, by decide +kernel, by decide +kernel, ?_⟩
  intro k hk hle other hother
  have hone : k = 1 := Nat.le_antisymm (Nat.le_trans hle htop) hk
  have hnone : deepened.value? shallow headerId 1 = none := by decide +kernel
  rw [hone, hnone] at hother
  cases hother

/-- At the lower level the message has the id A, which is refined once. -/
theorem deduceFromFields_loaded_shallow : ∃ r,
    (load deepenedSource 201900 .base).outcome = .ok r ∧
    deepened.value? shallow headerId 0 = some "A" ∧ deepened.IsHighestEntry 0 "A" 0 ∧
    deepened.IsOwnBase shallow 0 0 "A" ∧
    (r.withLearning true).deduceFromFields shallow = some "A.B" := by
  have hown := isOwnBase_deepened (Nat.zero_le 1)
  have hsame (k : Nat) (hk : 0 < k) (htop : k ≤ 0) :
      deepened.value? shallow headerId k = some "A" := absurd hk (Nat.not_lt.mpr htop)
  have hloads : ∃ r, (load deepenedSource 201900 .base).outcome = .ok r ∧
      decide (r.level = .base) = true := exists_load (by decide +kernel)
  obtain ⟨r, hload, -⟩ := hloads
  obtain ⟨-, -, hdeduced⟩ :=
    deduceFromFields_loaded hload readDirectory_deepenedSource true shallow
  exact ⟨r, hload, hown.made, hown.isHighestEntry hsame, hown,
    (hdeduced 0 "A" hown hsame "A.B").mpr refines_deepened⟩

/-- At the upper level the same header still makes up the id A, which the lower level lists and
refines, but the message has no id, as it has not all fields of the upper header. -/
theorem shallow_undeduced : ∃ r, (load deepenedSource 201900 ⟨1, by decide⟩).outcome = .ok r ∧
    (deepenedSource.readDirectory 201900).bind Directory.ofText = .ok deepened ∧
    deepened.IsOwnBase shallow 1 0 "A" ∧ deepened.Refines shallow 0 maxRefinements "A" "A.B" ∧
    r.deduceFromFields shallow = none := by
  have hloads : ∃ r, (load deepenedSource 201900 ⟨1, by decide⟩).outcome = .ok r ∧
      decide (r.deduceFromFields shallow = none) = true := exists_load (by decide +kernel)
  obtain ⟨r, hload, hnone⟩ := hloads
  exact ⟨r, hload, readDirectory_deepenedSource, isOwnBase_deepened (Nat.le_refl 1),
    refines_deepened, of_decide_eq_true hnone⟩

end Registry

end BusCompliance
