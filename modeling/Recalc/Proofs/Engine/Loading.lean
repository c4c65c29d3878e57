import Recalc.Engine
import Recalc.Proofs.Sheet.Refusal

/-!
# Which sheets are loaded

The formulas typed into a sheet decide whether it is loaded, whatever functions they call: none may
name a range around its own cell or around a cell that depends on it.
-/

namespace Recalc.Engine

open Relation

/-- A load is refused at the first range on a cycle, or it takes in a sheet that is ready for
passes. -/
theorem load_built (e : Engine) {rows : List (List String)} {s : Sheet}
    (hs : Sheet.ofRows e.functions 0 rows = .ok s) (hwired : s.Wired (s.Reads e.functions)) :
    (∃ id, s.FirstRangeOnCycle id
        ∧ e.load rows = (.error (.nonFormulaOnCycle .range id), e.unload))
      ∨ s.Passable e.functions s.order ∧ ∃ t,
        e.load rows = (.ok (), { e with sheet := some ⟨t, s.order⟩, passes := 1 })
        ∧ s.Reshown t
        ∧ ∀ id ∈ s.order.cycled, ∃ x a, t.store.get? id = some (.formula x a (.error .cycle)) := by
  have hload : e.load rows = e.unload.adopt ⟨s, s.order⟩ := by rw [load, hs]
  rcases hwired.pass_cases (Sheet.numbered_ofRows hs) with hpassable | ⟨id, t, hfirst, hpass⟩
  · obtain ⟨t, hpass, hshown, hmarked⟩ := hpassable.exists_pass_marked
    refine Or.inr ⟨hpassable, t, ?_, hshown, hmarked⟩
    rw [hload, adopt]
    simp only [unload, hpass]
  · refine Or.inl ⟨id, hfirst, ?_⟩
    rw [hload, adopt]
    simp only [unload, hpass]

/-- A sheet is refused if and only if formulas are circular. The failure names the range on a cycle
that was added first. A sheet that is loaded shows the cycle error in the formulas that are on
cycles, and these are the formulas that refer to themselves by way of single cells. -/
theorem load_outcome (e : Engine) (rows : List (List String)) :
    let names := Sheet.TypedNames e.functions 0 rows
    ((∃ failure, (e.load rows).1 = .error failure) ↔ Circular names)
      ∧ ((∃ s id, Sheet.ofRows e.functions 0 rows = .ok s ∧ s.FirstRangeOnCycle id
            ∧ e.load rows = (.error (.nonFormulaOnCycle .range id), e.unload))
        ∨ ∃ l, e.load rows = (.ok (), { e with sheet := some l, passes := 1 })
            ∧ (∀ id ∈ l.order.cycled, ∃ x a,
                l.sheet.store.get? id = some (.formula x a (.error .cycle)))
            ∧ ∀ a, (∃ id ∈ l.order.cycled, ∃ x shown,
                l.sheet.store.get? id = some (.formula x a shown))
              ↔ TransGen (RefersTo names) a a) := by
  intro names
  obtain ⟨s, hs, hwired, hsheet, hsize, hcells⟩ := Sheet.exists_ofRows e.functions 0 rows
  have hreads : s.Reads e.functions = Reading names :=
    Sheet.reads_eq_reading e.functions hsheet hsize fun a => (hcells a).1
  have hcircular : Circular names ↔ ∃ r, TransGen (s.Reads e.functions) (.range r) (.range r) := by
    rw [circular_iff, hreads]
  rcases e.load_built hs hwired with
    ⟨id, hfirst, hfail⟩ | ⟨hpassable, t, hok, hshown, hmarked⟩
  · refine ⟨iff_of_true ⟨_, congrArg Prod.fst hfail⟩ ?_, Or.inl ⟨s, id, hs, hfirst, hfail⟩⟩
    exact hcircular.mpr (hfirst.exists_cycle hwired)
  · have hnot : ¬ Circular names := by
      rw [hcircular]
      rintro ⟨r, hcycle⟩
      exact hpassable.not_range_cycle r hcycle
    refine ⟨iff_of_false ?_ hnot, Or.inr ⟨⟨t, s.order⟩, hok, hmarked, fun a => ?_⟩⟩
    · rintro ⟨failure, hfail⟩
      rw [hok] at hfail
      cases hfail
    · rw [(hshown.toSameOutline.passable hpassable).exists_cycled_formula_iff,
        hshown.toSameOutline.reads_eq hwired.labelled, hreads, transGen_refersTo_iff hnot]

/-- Of two ranges on the same cycle, the one that was added first is named. -/
example : (standard.load [["=SUM(B1:B2)", "=A1"], ["", "=SUM(A1:A1)"]]).1
    = .error (.nonFormulaOnCycle .range ⟨3⟩) := by decide +kernel

end Recalc.Engine
