import Recalc.Proofs.Engine.Solution
import Recalc.Proofs.Sheet.Circularity
import Recalc.Proofs.Sheet.Refusal

/-!
# What an edit leaves alone

An edit has the whole sheet evaluated again, perhaps in another order. A cell keeps its value all
the same unless its value is taken, directly or by way of other formulas, from the cell that was
typed into. The formulas on cycles stay the same.
-/

namespace Recalc

open Relation

namespace Sheet

/-- A cell is another one than `a` and does not take its value from it, not even by way of formulas
in between. -/
def FreeOf (functions : Registry) (s : Sheet) (a c : Address) : Prop :=
  c ≠ a ∧ ¬ TransGen (DependsOn (s.TakesFrom functions)) c a

variable {functions : Registry} {s t : Sheet} {a c : Address} {d : Dependency} {v : Value}

/-- What a cell takes its value from is as free as the cell. -/
theorem FreeOf.of_takesFrom (h : s.FreeOf functions a c) (htakes : s.TakesFrom functions c d) :
    ∀ b ∈ d.addresses, s.FreeOf functions a b := by
  intro b hb
  have hstep : DependsOn (s.TakesFrom functions) c b := ⟨d, htakes, hb⟩
  refine ⟨?_, fun hpath => h.2 (TransGen.head hstep hpath)⟩
  rintro rfl
  exact h.2 (TransGen.single hstep)

theorem Edited.sameFormulas (h : s.Edited a v t) : s.SameFormulas t :=
  ⟨h.sheet, h.width, h.height, h.formulaAt⟩

end Sheet

namespace LoadedSheet

/-- The formula in a cell is one of those set aside as members of cycles. -/
def Cycled (l : LoadedSheet) (x : Expr) (home : Address) : Prop :=
  ∃ id ∈ l.order.cycled, ∃ shown, l.sheet.store.get? id = some (.formula x home shown)

namespace Consistent

variable {l m : LoadedSheet} {x : Expr} {a b : Address} {v : Value}

theorem cycled_iff (h : l.Consistent) :
    l.Cycled x a ↔ l.sheet.formulaAt a = some x
      ∧ TransGen (l.sheet.Reads Registry.builtin) (.cell a) (.cell a) := by
  rw [← h.passable.exists_cycled_formula_iff, h.labelled.formulaAt_eq_some_iff]
  constructor
  · rintro ⟨id, hid, shown, hget⟩
    exact ⟨⟨id, shown, hget⟩, id, hid, x, shown, hget⟩
  · rintro ⟨⟨id, shown, hget⟩, j, hj, y, shown', hget'⟩
    have hsame : id = j := Option.some.inj
      ((h.labelled.find?_home hget).symm.trans (h.labelled.find?_home hget'))
    exact ⟨id, hsame ▸ hj, shown, hget⟩

/-- The same formulas have the same cycles. -/
theorem cycled_congr (h : l.Consistent) (h' : m.Consistent) (hsame : l.sheet.SameFormulas m.sheet)
    (x : Expr) (a : Address) : m.Cycled x a ↔ l.Cycled x a := by
  rw [h.cycled_iff, h'.cycled_iff, hsame.formulaAt, hsame.reads_eq]

/-- A value that is not taken from the cell that is edited stays the same. -/
theorem valueAt_eq_of_edited (h : l.Consistent) (h' : m.Consistent)
    (hedited : l.sheet.Edited a v m.sheet) (hfree : l.sheet.FreeOf Registry.builtin a b) :
    m.sheet.valueAt b = l.sheet.valueAt b := by
  have hconstant : ∀ c, l.sheet.FreeOf Registry.builtin a c →
      m.sheet.constantAt c = l.sheet.constantAt c := by
    intro c hc
    rw [hedited.constantAt, if_neg hc.1]
  have hstored := stored_eq_of_closed h h' hedited.sameFormulas
    (fun _ _ hc htakes => hc.of_takesFrom htakes) hconstant hfree
  exact hedited.sameFormulas.valueAt_eq h.labelled h'.labelled hstored

end Consistent

end LoadedSheet

namespace Engine

/-- Whatever an engine without plugins has been asked, typing into a cell leaves the values of all
cells alone that take nothing from it, and the members of cycles. -/
theorem run_setAt_isolated (csv : Csv.ReadOptions) (requests : List Request) {a : Address}
    {content : String} {e' : Engine}
    (hset : ((ofConfig ⟨[], csv⟩).run requests).setAt a content = (.ok (), e')) :
    let e := (ofConfig ⟨[], csv⟩).run requests
    ∃ l l', e.sheet = some l ∧ e'.sheet = some l'
      ∧ (∀ b, b ≠ a → ¬ TransGen (DependsOn (l.sheet.TakesFrom Registry.builtin)) b a →
        e'.getAt b = e.getAt b)
      ∧ ∀ x home, l'.Cycled x home ↔ l.Cycled x home := by
  intro e
  have h : e.Sound := (sound_ofConfig csv).run requests
  cases hl : e.sheet with
  | none =>
      obtain ⟨failure, hfail⟩ := setAt_of_none hl a content
      cases hset.symm.trans hfail
  | some l =>
      obtain ⟨-, l', hok, hedited, hconsistent⟩ | ⟨-, failure, hfail⟩ := h.setAt_cases hl a content
      · have hl' : e'.sheet = some l' :=
          congrArg (fun outcome => outcome.2.sheet) (hset.symm.trans hok)
        refine ⟨l, l', rfl, hl', fun b hne hfree => ?_, ?_⟩
        · rw [getAt_of_sheet hl, getAt_of_sheet hl']
          exact (h.sheet l hl).valueAt_eq_of_edited hconsistent hedited ⟨hne, hfree⟩
        · exact (h.sheet l hl).cycled_congr hconsistent hedited.sameFormulas
      · cases hset.symm.trans hfail

/-- The cell that is typed into is in a range of which only the height is looked at. -/
theorem run_setAt_isolated_rows :
    let requests := [.load [["p", "=A1&B1", "=A1&A1"], ["u", "=MATCH(A2,A2:A2,ROWS(A1:A2))"]]]
    let e := (ofConfig ⟨[], Csv.ReadOptions.standard⟩).run requests
    ∃ e' l l', e.setAt ⟨0, 0, 0⟩ "q" = (.ok (), e') ∧ e.sheet = some l ∧ e'.sheet = some l'
      ∧ l.order.cycled = [⟨1⟩] ∧ e'.getAt ⟨0, 1, 1⟩ = e.getAt ⟨0, 1, 1⟩
      ∧ ∀ x home, l'.Cycled x home ↔ l.Cycled x home := by
  intro requests e
  have hok : (e.setAt ⟨0, 0, 0⟩ "q").1.isOk = true := by decide +kernel
  have hfacts : (e.sheet.any fun l => l.order.cycled = [⟨1⟩]
      ∧ ((l.sheet.formulaAt ⟨0, 1, 1⟩).all fun x =>
        ∀ d ∈ x.inputs Registry.builtin.shapeOnly ⟨0, 1, 1⟩, d.addresses = [⟨0, 0, 1⟩])
      ∧ (l.sheet.formulaAt ⟨0, 0, 1⟩).isNone) = true := by decide +kernel
  cases hset : e.setAt ⟨0, 0, 0⟩ "q" with | mk outcome e'
  rw [hset] at hok
  cases outcome with
  | error => cases hok
  | ok =>
      obtain ⟨l, l', hl, hl', hvalues, hcycled⟩ :=
        run_setAt_isolated Csv.ReadOptions.standard requests hset
      rw [hl, Option.any_some] at hfacts
      obtain ⟨hself, hinputs, hnone⟩ := of_decide_eq_true hfacts
      refine ⟨e', l, l', rfl, hl, hl', hself, hvalues _ (by decide) fun hpath => ?_, hcycled⟩
      obtain ⟨b, ⟨d, ⟨x, hx, hd, -⟩, hb⟩, hrest⟩ := TransGen.head'_iff.mp hpath
      rw [hx, Option.all_some] at hinputs
      rw [of_decide_eq_true hinputs d hd] at hb
      obtain rfl := List.mem_singleton.mp hb
      obtain heq | ⟨c, ⟨_, ⟨y, hy, -⟩, -⟩, -⟩ := ReflTransGen.cases_head hrest
      · cases heq
      · rw [hy] at hnone
        cases hnone

end Engine

end Recalc
