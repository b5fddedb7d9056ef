import BusCompliance.Proofs.Outcome
import BusCompliance.Registry.Load
import Mathlib.Data.List.Forall2
import Mathlib.Data.List.Induction
import Mathlib.Data.List.Nodup

/-!
# What a load comes to

A load succeeds if every text is a document of a level that the directory names, no two documents
share their id and their level, and what they say can be put together. The registry is made up of
all those documents at once; for each schema the document of the highest level counts.
-/

namespace BusCompliance.Registry

variable {directory : Directory} {top : Nat} {i j : Intake} {text : String × String} {p : Placed}

/-! ## Taking documents -/

/-- The document of a text, at the level it names. -/
def Places (directory : Directory) (text : String × String) (p : Placed) : Prop :=
  SchemaDocument.ofText text.1 text.2 = .ok p.document ∧
    directory.levelOf? p.document.level = some p.level

/-- No two documents have the same. -/
def Placed.key (p : Placed) : String × Nat := (p.document.id, p.level)

/-- A document has to be in the directory if it counts at the top level. -/
def IsListed (directory : Directory) (top : Nat) (p : Placed) : Prop :=
  p.level ≤ top → (directory.entry? p.document.id p.level).isSome = true

instance (directory : Directory) (top : Nat) (p : Placed) : Decidable (IsListed directory top p) :=
  inferInstanceAs (Decidable (_ → _))

/-- What is taken after one more document. -/
def Intake.push (top : Nat) (i : Intake) (p : Placed) : Intake :=
  ⟨p.key :: i.seen, if p.level ≤ top then i.placed ++ [p] else i.placed⟩

theorem outcome_take (h : Places directory text p) :
    (i.take directory top text.1 text.2).outcome =
      if p.key ∈ i.seen then .error (.duplicateSchema p.document.id p.level)
      else if IsListed directory top p then .ok (i.push top p)
      else .error (.unlistedDocument text.1 p.document.id p.level) := by
  unfold Intake.take Intake.push Placed.key IsListed
  rw [Action.outcome_bind, Action.outcome_ofExcept, h.1, ok_bind]
  simp only [h.2, List.contains_iff_mem]
  by_cases hseen : (p.document.id, p.level) ∈ i.seen
  · simp only [if_pos hseen, Action.outcome_ofExcept]
  · simp only [if_neg hseen]
    by_cases htop : p.level ≤ top
    · rcases Option.eq_none_or_eq_some (directory.entry? p.document.id p.level) with hnone | ⟨e, he⟩
      · simp [htop, hnone, Nat.not_lt.mpr htop]
      · simp [htop, he, Nat.not_lt.mpr htop]
    · simp [htop, Nat.lt_of_not_le htop, ok_bind]

theorem places_of_take (h : (i.take directory top text.1 text.2).outcome = .ok j) :
    ∃ p, Places directory text p := by
  unfold Intake.take at h
  rw [Action.outcome_bind] at h
  obtain ⟨document, hdocument, h⟩ := bind_eq_ok_iff.mp h
  cases hlevel : directory.levelOf? document.level with
  | none =>
    simp only [hlevel] at h
    cases h
  | some level => exact ⟨⟨level, document⟩, hdocument, hlevel⟩

theorem take_eq_ok_iff : (i.take directory top text.1 text.2).outcome = .ok j ↔
    ∃ p, Places directory text p ∧ p.key ∉ i.seen ∧ IsListed directory top p ∧
      i.push top p = j := by
  constructor
  · intro h
    obtain ⟨p, hplaces⟩ := places_of_take h
    rw [outcome_take hplaces] at h
    split at h
    · cases h
    · split at h
      · rename_i hseen hlisted
        exact ⟨p, hplaces, hseen, hlisted, Except.ok.inj h⟩
      · cases h
  · rintro ⟨p, hplaces, hseen, hlisted, rfl⟩
    rw [outcome_take hplaces, if_neg hseen, if_pos hlisted]

/-! ## All documents -/

variable {seen : List (String × Nat)} {ps : List Placed} {texts : List (String × String)}

/-- No two documents have the same key, none has one that was seen before, and those that count are
in the directory. -/
structure Fits (directory : Directory) (top : Nat) (seen : List (String × Nat))
    (ps : List Placed) : Prop where
  distinct : (ps.map Placed.key).Nodup
  unseen : ∀ p ∈ ps, p.key ∉ seen
  listed : ∀ p ∈ ps, IsListed directory top p

theorem fits_nil : Fits directory top seen [] := ⟨.nil, by simp, by simp⟩

theorem fits_cons_iff : Fits directory top seen (p :: ps) ↔
    p.key ∉ seen ∧ IsListed directory top p ∧ Fits directory top (p.key :: seen) ps := by
  constructor
  · rintro ⟨hdistinct, hunseen, hlisted⟩
    obtain ⟨hp, hps⟩ := List.nodup_cons.mp hdistinct
    obtain ⟨hnew, hunseen⟩ := List.forall_mem_cons.mp hunseen
    obtain ⟨hlisted, hrest⟩ := List.forall_mem_cons.mp hlisted
    refine ⟨hnew, hlisted, hps, ?_, hrest⟩
    intro q hq hmem
    rcases List.mem_cons.mp hmem with hkey | hmem
    · exact hp (List.mem_map.mpr ⟨q, hq, hkey⟩)
    · exact hunseen q hq hmem
  · rintro ⟨hnew, hlisted, hdistinct, hunseen, hrest⟩
    refine ⟨List.nodup_cons.mpr ⟨?_, hdistinct⟩, ?_, List.forall_mem_cons.mpr ⟨hlisted, hrest⟩⟩
    · intro hmem
      obtain ⟨q, hq, hkey⟩ := List.mem_map.mp hmem
      exact hunseen q hq (hkey ▸ List.mem_cons_self)
    · refine List.forall_mem_cons.mpr ⟨hnew, ?_⟩
      intro q hq hmem
      exact hunseen q hq (List.mem_cons_of_mem p.key hmem)

def takeAll (directory : Directory) (top : Nat) (i : Intake) (texts : List (String × String)) :
    Action Intake :=
  texts.foldlM (fun i (name, text) => i.take directory top name text) i

theorem takeAll_from_eq_ok_iff : (takeAll directory top i texts).outcome = .ok j ↔
    ∃ ps, List.Forall₂ (Places directory) texts ps ∧ Fits directory top i.seen ps ∧
      ps.foldl (Intake.push top) i = j := by
  induction texts generalizing i with
  | nil =>
    constructor
    · intro h
      exact ⟨[], .nil, fits_nil, Except.ok.inj h⟩
    · rintro ⟨ps, hplaces, -, rfl⟩
      cases hplaces
      rfl
  | cons text texts ih =>
    have hstep : (takeAll directory top i (text :: texts)).outcome = .ok j ↔
        ∃ k, (i.take directory top text.1 text.2).outcome = .ok k ∧
          (takeAll directory top k texts).outcome = .ok j := by
      unfold takeAll
      rw [List.foldlM_cons, Action.outcome_bind, bind_eq_ok_iff]
    rw [hstep]
    constructor
    · rintro ⟨k, htake, hrest⟩
      obtain ⟨p, hp, hnew, hlisted, rfl⟩ := take_eq_ok_iff.mp htake
      obtain ⟨ps, hps, hfits, rfl⟩ := ih.mp hrest
      exact ⟨p :: ps, .cons hp hps, fits_cons_iff.mpr ⟨hnew, hlisted, hfits⟩, rfl⟩
    · rintro ⟨ps, hplaces, hfits, rfl⟩
      obtain ⟨p, ps, hp, hps, rfl⟩ := List.forall₂_cons_left_iff.mp hplaces
      obtain ⟨hnew, hlisted, hfits⟩ := fits_cons_iff.mp hfits
      exact ⟨i.push top p, take_eq_ok_iff.mpr ⟨p, hp, hnew, hlisted, rfl⟩,
        ih.mpr ⟨ps, hps, hfits, rfl⟩⟩

/-- What is taken when all documents are. -/
def Intake.all (top : Nat) (ps : List Placed) : Intake :=
  ⟨(ps.map Placed.key).reverse, ps.filter (·.level ≤ top)⟩

theorem foldl_push (ps : List Placed) (i : Intake) : ps.foldl (Intake.push top) i =
    ⟨(Intake.all top ps).seen ++ i.seen, i.placed ++ (Intake.all top ps).placed⟩ := by
  unfold Intake.all
  induction ps generalizing i with
  | nil => simp
  | cons p ps ih =>
    rw [List.foldl_cons, ih]
    unfold Intake.push
    by_cases htop : p.level ≤ top <;> simp [htop]

theorem takeAll_eq_ok_iff : (takeAll directory top ⟨[], []⟩ texts).outcome = .ok j ↔
    ∃ ps, List.Forall₂ (Places directory) texts ps ∧ Fits directory top [] ps ∧
      Intake.all top ps = j := by
  rw [takeAll_from_eq_ok_iff]
  simp only [foldl_push, List.append_nil, List.nil_append]

theorem eq_of_key (hdistinct : (ps.map Placed.key).Nodup) {p q : Placed} (hp : p ∈ ps) (hq : q ∈ ps)
    (hkey : p.key = q.key) : p = q :=
  List.inj_on_of_nodup_map hdistinct hp hq hkey

/-! ## Templates -/

/-- Of the documents of a schema, the one of the highest level; nothing if there is none. -/
def IsHighest (ps : List Placed) (id : String) : Option Placed → Prop
  | none => ∀ q ∈ ps, q.document.id ≠ id
  | some p => p ∈ ps ∧ p.document.id = id ∧ ∀ q ∈ ps, q.document.id = id → q.level ≤ p.level

/-- The document that is kept of two, of which the first may be missing. -/
def higher : Option Placed → Placed → Placed
  | some q, p => if p.level < q.level then q else p
  | none, p => p

theorem get?_keepHighest (kept : Roster Placed (·.document.id)) (p : Placed) (id : String) :
    (keepHighest kept p).get? id =
      if p.document.id = id then some (higher (kept.get? id) p) else kept.get? id := by
  unfold keepHighest
  by_cases hid : p.document.id = id
  · subst hid
    cases hget : kept.get? p.document.id with
    | none => simp [higher, Roster.get?_insert]
    | some q =>
      by_cases hlevel : p.level < q.level <;> simp [higher, hlevel, hget, Roster.get?_insert]
  · rw [if_neg hid]
    cases kept.get? p.document.id with
    | none => rw [Roster.get?_insert, if_neg hid]
    | some q =>
      simp only
      split
      · rfl
      · rw [Roster.get?_insert, if_neg hid]

theorem forall_mem_concat {α : Type} {f : α → Prop} {xs : List α} {x : α}
    (hxs : ∀ y ∈ xs, f y) (hx : f x) : ∀ y ∈ xs ++ [x], f y :=
  List.forall_mem_append.mpr ⟨hxs, List.forall_mem_singleton.mpr hx⟩

theorem IsHighest.add {id : String} {o : Option Placed} (h : IsHighest ps id o) (p : Placed) :
    IsHighest (ps ++ [p]) id (if p.document.id = id then some (higher o p) else o) := by
  have hp : p ∈ ps ++ [p] := List.mem_append_right ps List.mem_cons_self
  cases o with
  | none =>
    split
    · rename_i hid
      refine ⟨hp, hid, forall_mem_concat ?_ fun _ => Nat.le_refl p.level⟩
      exact fun q hq hqid => absurd hqid (h q hq)
    · rename_i hid
      exact forall_mem_concat h hid
  | some q =>
    obtain ⟨hq, hqid, hhighest⟩ := h
    split
    · rename_i hid
      simp only [higher]
      split
      · rename_i hlevel
        exact ⟨List.mem_append_left [p] hq, hqid,
          forall_mem_concat hhighest fun _ => Nat.le_of_lt hlevel⟩
      · rename_i hlevel
        refine ⟨hp, hid, forall_mem_concat ?_ fun _ => Nat.le_refl p.level⟩
        intro q' hq' hqid'
        have hle := hhighest q' hq' hqid'
        omega
    · rename_i hid
      exact ⟨List.mem_append_left [p] hq, hqid,
        forall_mem_concat hhighest fun hpid => absurd hpid hid⟩

theorem isHighest_foldl_keepHighest (ps : List Placed) (id : String) :
    IsHighest ps id ((ps.foldl keepHighest .empty).get? id) := by
  induction ps using List.reverseRecOn with
  | nil => exact fun q hq => absurd hq List.not_mem_nil
  | append_singleton ps p ih =>
    rw [List.foldl_append, List.foldl_cons, List.foldl_nil, get?_keepHighest]
    exact ih.add p

/-! ## The registry -/

variable {r : Registry} {source : String} {version : Nat} {level : SchemaLevel}
  {names : List String}

theorem assemble_eq_ok_iff : assemble source version level directory names i = .ok r ↔
    (entriesUpTo directory level.value).forM (checkEntry i.seen) = .ok () ∧
    ∃ headers templates, layerHeaders i.placed names = .ok headers ∧
      (templateDocuments i.placed).toList.mapM (templateOf (headers.getLast?.getD ⟨"", [], []⟩)
        ((entriesUpTo directory level.value).map (definitionOf directory))) = .ok templates ∧
      r = {
        version, level, source, headers
        definitions := (entriesUpTo directory level.value).map (definitionOf directory)
        aliases := aliasesOf (entriesUpTo directory level.value) (.ofList templates)
        templates := .ofList templates
        learns := false } := by
  unfold assemble
  simp only [bind_eq_ok_iff]
  constructor
  · rintro ⟨⟨⟩, hentries, headers, hheaders, templates, htemplates, ⟨⟩⟩
    exact ⟨hentries, headers, templates, hheaders, htemplates, rfl⟩
  · rintro ⟨hentries, headers, templates, hheaders, htemplates, rfl⟩
    exact ⟨⟨⟩, hentries, headers, hheaders, templates, htemplates, rfl⟩

theorem load_eq_ok_iff {source : Source} : (load source version level).outcome = .ok r ↔
    ∃ directory names texts ps,
      (source.readDirectory version).bind Directory.ofText = .ok directory ∧
      (List.range (level.value + 1)).mapM (levelName directory) = .ok names ∧
      (source.readDocuments version).outcome = .ok texts ∧
      List.Forall₂ (Places directory) texts ps ∧ Fits directory level.value [] ps ∧
      assemble source.describe version level directory names (.all level.value ps) = .ok r := by
  unfold load
  simp only [Action.outcome_bind, Action.outcome_ofExcept, bind_eq_ok_iff]
  constructor
  · rintro ⟨directory, hdirectory, names, hnames, texts, htexts, _, hintake, _, hassemble, _, -, ⟨⟩⟩
    obtain ⟨ps, hplaces, hfits, rfl⟩ := takeAll_eq_ok_iff.mp hintake
    exact ⟨directory, names, texts, ps, hdirectory, hnames, htexts, hplaces, hfits, hassemble⟩
  · rintro ⟨directory, names, texts, ps, hdirectory, hnames, htexts, hplaces, hfits, hassemble⟩
    have hintake := takeAll_eq_ok_iff.mpr ⟨ps, hplaces, hfits, rfl⟩
    exact ⟨directory, hdirectory, names, hnames, texts, htexts, _, hintake, r, hassemble, ⟨⟩, rfl,
      rfl⟩

theorem exists_load {source : Source} {f : Registry → Bool}
    (h : (load source version level).outcome.toOption.any f = true) :
    ∃ r, (load source version level).outcome = .ok r ∧ f r = true :=
  exists_of_toOption_any h

end BusCompliance.Registry
