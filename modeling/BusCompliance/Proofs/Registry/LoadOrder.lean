import BusCompliance.Proofs.Registry.Load
import Mathlib.Data.List.Perm.Basic

/-!
# The order of documents

Documents of different keys can be taken in any order: nothing that is made of them depends on which
comes first. No two documents of a load share their key, so the load depends on their set only.
-/

namespace BusCompliance.Registry

variable {ps qs : List Placed}

/-! ## Headers -/

/-- Items of which at most one is wanted are searched in any order. -/
theorem find?_perm {α : Type} {f : α → Bool} {xs ys : List α} (h : xs.Perm ys)
    (honly : ∀ x ∈ xs, ∀ y ∈ xs, f x → f y → x = y) : xs.find? f = ys.find? f := by
  cases hx : xs.find? f with
  | none =>
    apply Eq.symm
    apply List.find?_eq_none.mpr
    intro y hy
    exact List.find?_eq_none.mp hx y (h.mem_iff.mpr hy)
  | some x =>
    have hxs := List.mem_of_find?_eq_some hx
    have hsome : (ys.find? f).isSome = true :=
      List.find?_isSome.mpr ⟨x, h.mem_iff.mp hxs, List.find?_some hx⟩
    obtain ⟨y, hy⟩ := Option.isSome_iff_exists.mp hsome
    have hys := h.mem_iff.mpr (List.mem_of_find?_eq_some hy)
    rw [hy, honly x hxs y hys (List.find?_some hx) (List.find?_some hy)]

theorem addHeader_perm (h : ps.Perm qs) (hdistinct : (ps.map Placed.key).Nodup) :
    addHeader ps = addHeader qs := by
  funext headers level name
  unfold addHeader
  rw [find?_perm h]
  intro p hp q hq hpl hql
  simp only [Bool.and_eq_true, beq_iff_eq, SchemaDocument.isHeader] at hpl hql
  apply eq_of_key hdistinct hp hq
  unfold Placed.key
  rw [hpl.1, hpl.2, hql.1, hql.2]

/-! ## Templates -/

theorem IsHighest.unique (hdistinct : (ps.map Placed.key).Nodup) (h : ps.Perm qs) {id : String}
    {o o' : Option Placed} (ho : IsHighest ps id o) (ho' : IsHighest qs id o') : o = o' := by
  cases o with
  | none =>
    cases o' with
    | none => rfl
    | some q => exact absurd ho'.2.1 (ho q (h.mem_iff.mpr ho'.1))
  | some p =>
    cases o' with
    | none => exact absurd ho.2.1 (ho' p (h.mem_iff.mp ho.1))
    | some q =>
      obtain ⟨hp, hpid, hphighest⟩ := ho
      obtain ⟨hq, hqid, hqhighest⟩ := ho'
      have hlevel : p.level = q.level :=
        Nat.le_antisymm (hqhighest p (h.mem_iff.mp hp) hpid) (hphighest q (h.mem_iff.mpr hq) hqid)
      have hkey : p.key = q.key := by
        unfold Placed.key
        rw [hpid, hqid, hlevel]
      rw [eq_of_key hdistinct hp (h.mem_iff.mpr hq) hkey]

theorem templateDocuments_perm (h : ps.Perm qs) (hdistinct : (ps.map Placed.key).Nodup) :
    templateDocuments ps = templateDocuments qs := by
  apply Roster.ext_get?
  intro id
  refine IsHighest.unique ?_ (h.filter fun p => !p.document.isHeader)
    (isHighest_foldl_keepHighest _ id) (isHighest_foldl_keepHighest _ id)
  exact hdistinct.sublist (List.filter_sublist.map Placed.key)

/-! ## The registry -/

variable {directory : Directory} {top version : Nat} {source : String} {level : SchemaLevel}
  {names : List String}

theorem Fits.perm {seen : List (String × Nat)} (hfits : Fits directory top seen ps)
    (h : ps.Perm qs) : Fits directory top seen qs :=
  ⟨(h.map Placed.key).nodup_iff.mp hfits.distinct, fun p hp => hfits.unseen p (h.mem_iff.mpr hp),
    fun p hp => hfits.listed p (h.mem_iff.mpr hp)⟩

theorem checkEntry_perm {seen seen' : List (String × Nat)} (h : seen.Perm seen') :
    checkEntry seen = checkEntry seen' := by
  funext e
  unfold checkEntry
  simp only [List.contains_iff_mem, h.mem_iff]

theorem assemble_perm (h : ps.Perm qs) (hdistinct : (ps.map Placed.key).Nodup) :
    assemble source version level directory names (.all top ps) =
      assemble source version level directory names (.all top qs) := by
  have hseen : (Intake.all top ps).seen.Perm (Intake.all top qs).seen :=
    (List.reverse_perm _).trans ((h.map Placed.key).trans (List.reverse_perm _).symm)
  have hplaced : (Intake.all top ps).placed.Perm (Intake.all top qs).placed := h.filter _
  have hdistinct' : ((Intake.all top ps).placed.map Placed.key).Nodup :=
    hdistinct.sublist (List.filter_sublist.map Placed.key)
  unfold assemble layerHeaders
  rw [checkEntry_perm hseen, addHeader_perm hplaced hdistinct',
    templateDocuments_perm hplaced hdistinct']

/-- A load of the same documents in another order succeeds with the same registry, or fails too. -/
theorem load_perm (directory : String) {texts texts' : List (String × String)}
    (h : texts.Perm texts') (version : Nat) (level : SchemaLevel) (r : Registry) :
    (load (.inline directory texts) version level).outcome = .ok r ↔
      (load (.inline directory texts') version level).outcome = .ok r := by
  suffices hall : ∀ {texts texts' : List (String × String)}, texts.Perm texts' →
      (load (.inline directory texts) version level).outcome = .ok r →
        (load (.inline directory texts') version level).outcome = .ok r from
    ⟨hall h, hall h.symm⟩
  intro texts texts' h hload
  obtain ⟨d, names, _, ps, hd, hnames, ⟨⟩, hplaces, hfits, hassemble⟩ := load_eq_ok_iff.mp hload
  obtain ⟨qs, hplaces', hperm⟩ := List.perm_comp_forall₂ h.symm hplaces
  refine load_eq_ok_iff.mpr ⟨d, names, texts', qs, hd, hnames, rfl, hplaces', ?_, ?_⟩
  · exact hfits.perm hperm.symm
  · rw [← assemble_perm hperm.symm hfits.distinct]
    exact hassemble

/-- A directory of one level, which lists its header and the schema A. -/
def smallDirectory : String :=
  "[[levels]]\nlevel=0\nname=\"L\"\n" ++
    "[[schemas]]\nid=\"HEADER\"\nlevel=0\n[[schemas]]\nid=\"A\"\nlevel=0\n"

def smallTexts : List (String × String) :=
  [("a", "id=\"A\"\nlevel=\"L\"\n"), ("header", "id=\"HEADER\"\nlevel=\"L\"\n")]

theorem load_perm_smallTexts : ∃ r,
    (load (.inline smallDirectory smallTexts) 201900 .base).outcome = .ok r ∧
    (load (.inline smallDirectory smallTexts.reverse) 201900 .base).outcome = .ok r := by
  have hexists : ∃ r, (load (.inline smallDirectory smallTexts) 201900 .base).outcome = .ok r ∧
      r.schemaIds.contains "A" = true := exists_load (by decide +kernel)
  obtain ⟨r, hload, -⟩ := hexists
  exact ⟨r, hload, (load_perm smallDirectory (List.reverse_perm _).symm 201900 _ r).mp hload⟩

end BusCompliance.Registry
