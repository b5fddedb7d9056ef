import BusCompliance.Proofs.Registry.Loaded

/-!
# Entries and documents

A load checks that no two documents have one key, that every entry with a template has a document
and that every document has an entry. It does not check that no two entries have one key: of those
that do the first one makes up the ids, while all of them have their aliases.
-/

namespace BusCompliance.Registry

variable {source : Source} {version top : Nat} {level : SchemaLevel} {r : Registry}
  {directory : Directory} {ps : List Placed} {entries : List SchemaEntry} {e : SchemaEntry}
  {id a : String}

/-! ## What is checked -/

/-- What an entry shares with its document. -/
def entryKey (e : SchemaEntry) : String × Nat := (e.id, e.level)

theorem checkEntry_eq_ok_iff {seen : List (String × Nat)} : checkEntry seen e = .ok () ↔
    e.definitionOnly = true ∨ entryKey e ∈ seen := by
  unfold checkEntry entryKey
  simp only [List.contains_iff_mem]
  split
  · rename_i hpasses
    exact iff_of_true rfl hpasses
  · rename_i hfails
    exact iff_of_false (fun h => by cases h) hfails

theorem mem_entriesUpTo_iff :
    e ∈ entriesUpTo directory top ↔ e ∈ directory.schemas ∧ e.level ≤ top := by
  unfold entriesUpTo
  rw [List.mem_filter, decide_eq_true_iff]

theorem entryKey_mem {n : Nat} (h : (directory.entry? id n).isSome = true) (hn : n ≤ top) :
    (id, n) ∈ (entriesUpTo directory top).map entryKey := by
  obtain ⟨e, he⟩ := Option.isSome_iff_exists.mp h
  have hkey := List.find?_some he
  simp only [Bool.and_eq_true, beq_iff_eq] at hkey
  refine List.mem_map.mpr ⟨e, mem_entriesUpTo_iff.mpr ⟨List.mem_of_find?_eq_some he, ?_⟩, ?_⟩
  · rw [hkey.2]
    exact hn
  · unfold entryKey
    rw [hkey.1, hkey.2]

/-! ## Who owns an alias -/

/-- The aliases of entries with the ids that they stand for. The last entry of an alias counts. -/
def aliasRoster (entries : List SchemaEntry) : Roster (String × String) Prod.fst :=
  .ofList <| entries.filterMap fun e => e.shortName.map fun a => (a, e.id)

theorem get?_aliasRoster_concat (entries : List SchemaEntry) (e : SchemaEntry) (a : String) :
    (aliasRoster (entries ++ [e])).get? a =
      if e.shortName = some a then some (a, e.id) else (aliasRoster entries).get? a := by
  unfold aliasRoster Roster.ofList
  rw [List.filterMap_append, List.foldl_append]
  cases hname : e.shortName with
  | none => simp [hname]
  | some b =>
    simp only [List.filterMap_cons, hname, Option.map_some, List.filterMap_nil, List.foldl_cons,
      List.foldl_nil, Roster.get?_insert, Option.some.injEq]
    split
    · rename_i hb
      rw [hb]
    · rfl

/-- Of entries in the order of their levels the last one with an alias owns it. -/
theorem exists_owner_of_sorted (hsorted : entries.Pairwise fun a b => a.level ≤ b.level)
    (h : ∃ e ∈ entries, e.shortName = some a) :
    ∃ owner ∈ entries, owner.shortName = some a ∧
      (∀ e ∈ entries, e.shortName = some a → e.level ≤ owner.level) ∧
      (aliasRoster entries).get? a = some (a, owner.id) := by
  induction entries using List.reverseRecOn with
  | nil =>
    obtain ⟨e, he, -⟩ := h
    cases he
  | append_singleton entries last ih =>
    obtain ⟨hsorted, -, hlast⟩ := List.pairwise_append.mp hsorted
    rw [get?_aliasRoster_concat]
    by_cases hname : last.shortName = some a
    · rw [if_pos hname]
      refine ⟨last, by simp, hname, forall_mem_concat ?_ fun _ => Nat.le_refl last.level, rfl⟩
      exact fun e he _ => hlast e he last List.mem_cons_self
    · rw [if_neg hname]
      have hrest : ∃ e ∈ entries, e.shortName = some a := by
        obtain ⟨e, he, ha⟩ := h
        rcases List.mem_append.mp he with he | he
        · exact ⟨e, he, ha⟩
        · rw [List.mem_singleton.mp he] at ha
          exact absurd ha hname
      obtain ⟨owner, howner, ha, hhighest, hget⟩ := ih hsorted hrest
      refine ⟨owner, List.mem_append_left _ howner, ha, forall_mem_concat hhighest ?_, hget⟩
      exact fun ha => absurd ha hname

theorem pairwise_level_mergeSort (entries : List SchemaEntry) :
    (entries.mergeSort fun a b => a.level ≤ b.level).Pairwise fun a b => a.level ≤ b.level := by
  refine List.Pairwise.imp of_decide_eq_true (List.pairwise_mergeSort ?_ ?_ entries)
  · intro a b c hab hbc
    exact decide_eq_true (Nat.le_trans (of_decide_eq_true hab) (of_decide_eq_true hbc))
  · intro a b
    rw [Bool.or_eq_true, decide_eq_true_iff, decide_eq_true_iff]
    exact Nat.le_total a.level b.level

/-- An entry that counts at a level and gives its schema, which has a template, an alias. -/
structure Declares (directory : Directory) (top : Nat) (r : Registry) (a : String)
    (e : SchemaEntry) : Prop where
  mem : e ∈ directory.schemas
  within : e.level ≤ top
  listed : e.id ∈ r.schemaIds
  shortName : e.shortName = some a

theorem contains_templates_iff : r.templates.contains id = true ↔ id ∈ r.schemaIds := by
  rw [mem_schemaIds_iff]
  exact Option.isSome_iff_exists

/-- The highest entry that declares an alias owns it. -/
theorem exists_owner (haliases : r.aliases = aliasesOf (entriesUpTo directory top) r.templates)
    (he : Declares directory top r a e) :
    ∃ owner, Declares directory top r a owner ∧
      (∀ e, Declares directory top r a e → e.level ≤ owner.level) ∧
      r.aliases.get? a = some (a, owner.id) := by
  have hmem {e : SchemaEntry} : e ∈ ((entriesUpTo directory top).filter fun e =>
      r.templates.contains e.id).mergeSort (fun a b => a.level ≤ b.level) ∧ e.shortName = some a ↔
        Declares directory top r a e := by
    rw [List.mem_mergeSort, List.mem_filter, mem_entriesUpTo_iff, contains_templates_iff]
    constructor
    · rintro ⟨⟨⟨hmem, hwithin⟩, hlisted⟩, hname⟩
      exact ⟨hmem, hwithin, hlisted, hname⟩
    · rintro ⟨hmem, hwithin, hlisted, hname⟩
      exact ⟨⟨⟨hmem, hwithin⟩, hlisted⟩, hname⟩
  obtain ⟨owner, howner, hname, hhighest, hget⟩ :=
    exists_owner_of_sorted (pairwise_level_mergeSort _) ⟨e, hmem.mpr he⟩
  refine ⟨owner, hmem.mp ⟨howner, hname⟩, fun e he => ?_, ?_⟩
  · obtain ⟨hmem, hname⟩ := hmem.mpr he
    exact hhighest e hmem hname
  · rw [haliases]
    exact hget

/-! ## What a load makes sure of -/

/-- The entries that count at a level and the documents correspond, but for entries of one key. -/
structure Corresponds (directory : Directory) (top : Nat) (ps : List Placed) (r : Registry) :
    Prop where
  documents : (ps.map Placed.key).Nodup
  /-- An entry with a template has exactly one document. -/
  entries : ∀ e ∈ entriesUpTo directory top, e.definitionOnly = false →
    (ps.map Placed.key).count (entryKey e) = 1
  /-- A document has an entry, and exactly one if no two entries have one key. -/
  listed : ∀ p ∈ ps, p.level ≤ top → p.key ∈ (entriesUpTo directory top).map entryKey ∧
    (((entriesUpTo directory top).map entryKey).Nodup →
      ((entriesUpTo directory top).map entryKey).count p.key = 1)
  /-- Of the entries of one key the first makes up the ids. -/
  definitions : ∀ id n, n ≤ top →
    r.definition? id n = (directory.entry? id n).map (definitionOf directory)
  /-- No entry loses its alias but to one of the highest level that declares it. -/
  aliases : ∀ a e, Declares directory top r a e → ∃ owner, Declares directory top r a owner ∧
    (∀ e, Declares directory top r a e → e.level ≤ owner.level) ∧
    r.aliases.get? a = some (a, owner.id)

/-- A load at a level puts the documents up to it and their entries together, and takes the first of
several entries of one key. -/
theorem load_corresponds (h : (load source version level).outcome = .ok r) :
    ∃ directory ps, Reads source version directory ps ∧
      Corresponds directory level.value ps r := by
  obtain ⟨directory, names, texts, ps, hdirectory, -, htexts, hplaces, hfits, hassemble⟩ :=
    load_eq_ok_iff.mp h
  obtain ⟨hentries, headers, templates, -, -, rfl⟩ := assemble_eq_ok_iff.mp hassemble
  refine ⟨directory, ps, ⟨texts, hdirectory, htexts, hplaces⟩, hfits.distinct, ?_, ?_, ?_, ?_⟩
  · intro e he htemplate
    rcases checkEntry_eq_ok_iff.mp (forM_eq_ok_iff.mp hentries e he) with honly | hseen
    · rw [htemplate] at honly
      cases honly
    · exact List.count_eq_one_of_mem hfits.distinct (List.mem_reverse.mp hseen)
  · intro p hp hwithin
    have hmem := entryKey_mem (hfits.listed p hp hwithin) hwithin
    exact ⟨hmem, fun hdistinct => List.count_eq_one_of_mem hdistinct hmem⟩
  · exact fun id n hn => find?_definitionOf directory id hn
  · exact fun a e he => exists_owner rfl he

/-- A source whose directory lists the schema A twice, the second time with another definition and
an alias. -/
def repeatedSource : Source := .inline
  ("[[levels]]\nlevel=0\nname=\"L\"\n[[schemas]]\nid=\"HEADER\"\nlevel=0\n" ++
    "[[schemas]]\nid=\"A\"\nlevel=0\ndefinition=[\"T\"]\n" ++
    "[[schemas]]\nid=\"A\"\nlevel=0\ndefinition=[\"V\"]\nalias=\"X\"\n")
  [("header", "id=\"HEADER\"\nlevel=\"L\"\n"), ("a", "id=\"A\"\nlevel=\"L\"\n")]

theorem load_repeatedSource : ∃ r, (load repeatedSource 201900 .base).outcome = .ok r ∧
    decide (r.definitions = [⟨"HEADER", 0, []⟩, ⟨"A", 0, ["T"]⟩, ⟨"A", 0, ["V"]⟩]) = true :=
  exists_load (by decide +kernel)

theorem load_corresponds_repeated : ∃ r directory ps,
    (load repeatedSource 201900 .base).outcome = .ok r ∧ Reads repeatedSource 201900 directory ps ∧
    Corresponds directory 0 ps r := by
  obtain ⟨r, hload, -⟩ := load_repeatedSource
  obtain ⟨directory, ps, hreads, hcorresponds⟩ := load_corresponds hload
  exact ⟨r, directory, ps, hload, hreads, hcorresponds⟩

theorem map_entryKey (directory : Directory) (entries : List SchemaEntry) :
    entries.map entryKey = (entries.map (definitionOf directory)).map fun d => (d.id, d.level) := by
  rw [List.map_map]
  rfl

/-- A load accepts two entries of one key, and the definition of the second one is lost. -/
theorem exists_entry_shadowed : ∃ r directory ps,
    (load repeatedSource 201900 .base).outcome = .ok r ∧ Reads repeatedSource 201900 directory ps ∧
    ¬((entriesUpTo directory 0).map entryKey).Nodup ∧
    ∃ e ∈ entriesUpTo directory 0,
      r.definition? e.id e.level ≠ some (definitionOf directory e) := by
  obtain ⟨r, hload, hfacts⟩ := load_repeatedSource
  have hlisted : r.definitions = _ := of_decide_eq_true hfacts
  obtain ⟨directory, names, ps, hloaded⟩ := exists_loadedFrom hload
  have hdefinitions : r.definitions = (entriesUpTo directory 0).map (definitionOf directory) :=
    hloaded.definitions
  have hlast : (⟨"A", 0, ["V"]⟩ : Definition) ∈ r.definitions := by
    rw [hlisted]
    decide
  rw [hdefinitions] at hlast
  obtain ⟨e, he, hlost⟩ := List.mem_map.mp hlast
  refine ⟨r, directory, ps, hload, hloaded.reads, ?_, e, he, ?_⟩
  · rw [map_entryKey directory, ← hdefinitions, hlisted]
    decide
  · have hfirst : r.definition? "A" 0 = some ⟨"A", 0, ["T"]⟩ := by
      unfold definition?
      rw [hlisted]
      rfl
    have hkey : e.id = "A" ∧ e.level = 0 :=
      ⟨congrArg Definition.id hlost, congrArg Definition.level hlost⟩
    rw [hkey.1, hkey.2, hfirst, hlost]
    decide

end BusCompliance.Registry
