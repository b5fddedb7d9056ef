import BusCompliance.Proofs.Registry.BestMatch

/-!
# Ids behind a level

The version and the name of a level make no difference to an id, if the name has no dot. Of a name
that has one the part before the dot is taken for the level.
-/

namespace BusCompliance.Registry

variable {r : Registry} {id level first first' more x y : String}

/-- The version and a level without dots can be read off an id. -/
theorem qualify_inj (hfirst : '.' ∉ first.toList) (hfirst' : '.' ∉ first'.toList)
    (h : r.qualify first x = r.qualify first' y) : first = first' ∧ x = y := by
  have hchars : first.toList ++ '.' :: x.toList = first'.toList ++ '.' :: y.toList := by
    have htexts := congrArg String.toList h
    rwa [toList_qualify, toList_qualify, List.append_cancel_left_eq] at htexts
  have hsplit := Text.splitFirst_append (b := x.toList) hfirst
  rw [hchars, Text.splitFirst_append hfirst', Option.some.injEq, Prod.mk.injEq] at hsplit
  exact ⟨String.toList_inj.mp hsplit.1.symm, String.toList_inj.mp hsplit.2.symm⟩

theorem qualify_append (r : Registry) (first more id : String) :
    r.qualify (first ++ "." ++ more) id = r.qualify first (more ++ "." ++ id) := by
  simp [qualify, String.append_assoc]

theorem allBlank_qualify (r : Registry) (level id : String) :
    Text.allBlank (r.qualify level id) = false := by
  have hdot : '.' ∈ (r.qualify level id).toList := by
    simp [toList_qualify]
  unfold Text.allBlank
  rw [List.all_eq_false]
  exact ⟨'.', hdot, by decide⟩

/-- Behind a word that names no level, an id stands for itself. -/
theorem StandsFor.of_not_namesLevel (hfirst : '.' ∉ first.toList) (hunnamed : ¬r.NamesLevel first) :
    r.StandsFor (r.qualify first x) (r.qualify first x) := by
  refine .plain fun level q hlevel hdot he => hunnamed ?_
  rwa [(qualify_inj hfirst hdot he).1]

/-- Behind a level without dots in its name an id finds what it finds by itself. Of any other name
only the part before the first dot counts: where it names a level, the rest of the name is taken
for part of the id, and else all of the text is. -/
theorem findTemplate_qualify (h : Reached r) (hlevel : r.NamesLevel level)
    (hfilled : Text.allBlank id = false) (hplain : ¬r.IsQualified id) :
    ('.' ∉ level.toList →
      (∀ t, (r.findTemplate (r.qualify level id)).outcome = .ok t ↔
        (r.findTemplate id).outcome = .ok t) ∧
      ((∀ t, (r.findTemplate id).outcome ≠ .ok t) →
        (r.findTemplate (r.qualify level id)).outcome =
          .error (.unknownSchema (r.qualify level id)))) ∧
    ∀ first more, level = first ++ "." ++ more → '.' ∉ first.toList →
      (r.NamesLevel first → r.Finds (r.qualify level id) (more ++ "." ++ id)) ∧
      (¬r.NamesLevel first → r.Finds (r.qualify level id) (r.qualify level id)) := by
  have hqualified := r.allBlank_qualify level id
  have hfinds {q : String} (hq : r.StandsFor (r.qualify level id) q) :
      r.Finds (r.qualify level id) q := hq.finds h.aliasesListed hqualified
  refine ⟨fun hdot => ?_, ?_⟩
  · have hsame (t : Template) : (r.findTemplate (r.qualify level id)).outcome = .ok t ↔
        (r.findTemplate id).outcome = .ok t := by
      rw [findTemplate_eq_ok_iff, findTemplate_eq_ok_iff, unqualified_qualify hlevel hdot,
        unqualified_eq_self hplain, hqualified, hfilled]
    refine ⟨hsame, fun hnone => ?_⟩
    rcases hfinds (.qualified hlevel hdot) with ⟨t, -, ht⟩ | ⟨-, herror⟩
    · exact absurd ((hsame t).mp ht) (hnone t)
    · exact herror
  · rintro first more rfl hfirst
    -- the split at the first dot takes `more` for part of the id
    rw [qualify_append] at hfinds ⊢
    exact ⟨fun hnamed => hfinds (.qualified hnamed hfirst),
      fun hunnamed => hfinds (.of_not_namesLevel hfirst hunnamed)⟩

theorem not_isQualified_heartbeat (h : r.version = 201900) : ¬r.IsQualified "MSG.HB" := by
  apply not_isQualified
  rw [h]
  decide +kernel

/-- Behind the level A.B an id is looked up with all that stands before it. -/
theorem findTemplate_qualify_heartbeat : ∃ r, Reached r ∧ r.NamesLevel "A.B" ∧
    ¬r.NamesLevel "A" ∧ r.Finds (r.qualify "A.B" "MSG.HB") (r.qualify "A.B" "MSG.HB") := by
  obtain ⟨r, hload, hfacts⟩ := load_dottedSource
  obtain ⟨hversion, hlevels, -⟩ := of_decide_eq_true hfacts
  have hnamed : r.NamesLevel "A.B" := by
    rw [namesLevel_iff, hlevels]
    decide
  have hunnamed : ¬r.NamesLevel "A" := by
    rw [namesLevel_iff, hlevels]
    decide
  refine ⟨r, .loaded hload, hnamed, hunnamed, ?_⟩
  exact ((findTemplate_qualify (.loaded hload) hnamed (by decide)
    (not_isQualified_heartbeat hversion)).2 "A" "B" rfl (by decide)).2 hunnamed

/-- An id is found, but not behind the level of its registry. -/
theorem exists_qualify_unfound : ∃ r, Reached r ∧ r.NamesLevel "a.b" ∧ ¬r.IsQualified "MSG.HB" ∧
    (∃ t, (r.findTemplate "MSG.HB").outcome = .ok t) ∧
    ∀ t, (r.findTemplate (r.qualify "a.b" "MSG.HB")).outcome ≠ .ok t := by
  obtain ⟨r, hload, hfacts⟩ := load_dottedSource
  obtain ⟨hversion, hlevels, -, -, hfound, -, hunfound⟩ := of_decide_eq_true hfacts
  have htext : r.qualify "a.b" "MSG.HB" = "2019.00.a.b.MSG.HB" := by
    rw [qualify, hversion]
    decide +kernel
  refine ⟨r, .loaded hload, ?_, not_isQualified_heartbeat hversion, ?_, fun t ht => ?_⟩
  · rw [namesLevel_iff, hlevels]
    decide
  · cases houtcome : (r.findTemplate "MSG.HB").outcome with
    | ok t => exact ⟨t, rfl⟩
    | error e =>
      rw [houtcome] at hfound
      cases hfound
  · rw [htext] at ht
    rw [ht] at hunfound
    cases hunfound

end BusCompliance.Registry
