import Recalc.Proofs.Engine.Solution
import Recalc.Proofs.Evaluation.Strictness
import Recalc.Proofs.Sheet.Circularity

/-!
# Errors spread

A strict formula that refers to an error shows one, and so do the strict formulas that refer to it.
Around a cycle of such formulas nothing else can be shown, also where one of them refers to a range
that leads off the sheet, so that the graph has no cycle there.
-/

namespace Recalc

open Relation

namespace Sheet

/-- The formula in a cell is strict, and it refers to another cell. -/
def HandsOn (s : Sheet) (a b : Address) : Prop :=
  ∃ x, s.formulaAt a = some x ∧ x.isStrict = true ∧ some b ∈ x.references a

variable {s : Sheet} {a b : Address} {x : Expr}

theorem Labelled.inBounds_of_formulaAt (h : s.Labelled) (hx : s.formulaAt a = some x) :
    s.cells.inBounds a = true := by
  obtain ⟨id, shown, hid⟩ := h.formulaAt_eq_some_iff.mp hx
  exact h.covers (.cell a) id (h.find?_home hid)

theorem isError_of_valueAt (h : s.Labelled) {target : Option Address}
    (herror : ∀ b ∈ target, ∀ v, s.valueAt b = .ok v → v.isError = true) :
    (s.grid.read target).isError = true := by
  cases target with
  | none => rfl
  | some b =>
      rw [Grid.read, Grid.cell]
      split
      · next hb => exact herror b rfl _ (h.valueAt_eq hb)
      · rfl

end Sheet

namespace LoadedSheet.Consistent

variable {l : LoadedSheet} {a b : Address} {x : Expr} {target : Option Address}

/-- A strict formula that refers to an error holds one, on a cycle or not. -/
theorem isError_of_reference (h : l.Consistent) (hx : l.sheet.formulaAt a = some x)
    (hstrict : x.isStrict = true) (htarget : target ∈ x.references a)
    (herror : (l.sheet.grid.read target).isError = true) :
    (l.sheet.stored a).isError = true := by
  by_cases hcycle : TransGen (l.sheet.Reads Registry.builtin) (.cell a) (.cell a)
  · rw [h.stored_eq_error hcycle]
    rfl
  · rw [h.stored_eq_meaning hx hcycle]
    exact Expr.isError_meaning hstrict htarget herror

theorem isError_of_handsOn (h : l.Consistent) (hab : l.sheet.HandsOn a b)
    (hb : (l.sheet.stored b).isError = true) : (l.sheet.stored a).isError = true := by
  obtain ⟨x, hx, hstrict, htarget⟩ := hab
  refine h.isError_of_reference hx hstrict htarget ?_
  rw [Grid.read, Grid.cell]
  split
  · exact hb
  · rfl

/-- An error is handed on along any chain of references. -/
theorem isError_of_chain (h : l.Consistent) (hab : ReflTransGen l.sheet.HandsOn a b)
    (hb : (l.sheet.stored b).isError = true) : (l.sheet.stored a).isError = true := by
  induction hab using ReflTransGen.head_induction_on with
  | refl => exact hb
  | head hstep _ ih => exact h.isError_of_handsOn hstep ih

/-- What a strict formula refers to is read, or the formula holds an error. -/
theorem path_of_handsOn (h : l.Consistent) (hab : l.sheet.HandsOn a b) :
    TransGen (l.sheet.Reads Registry.builtin) (.cell a) (.cell b)
      ∨ (l.sheet.stored a).isError = true := by
  obtain ⟨x, hx, hstrict, htarget⟩ := hab
  obtain ⟨d, hd, hb, hall⟩ := Expr.exists_dependency hstrict htarget
  by_cases hcovers : l.sheet.grid.Covers d
  · have hcovers' := (l.sheet.grid_covers_iff d).mp hcovers
    refine Or.inl ?_
    have hread : l.sheet.Reads Registry.builtin (.cell a) d :=
      ⟨a, x, hx, d, hd, hcovers', .formula⟩
    cases d with
    | cell c =>
        obtain rfl := List.mem_singleton.mp hb
        exact .single hread
    | range r =>
        exact .tail (.single hread) ⟨a, x, hx, .range r, hd, hcovers', .cells rfl hb⟩
  · obtain ⟨c, hc, hout⟩ : ∃ c ∈ d.addresses, l.sheet.grid.inBounds c ≠ true := by
      simpa [Grid.Covers] using hcovers
    refine Or.inr (h.isError_of_reference hx hstrict (hall c hc) ?_)
    rw [Grid.read, Grid.cell, if_neg hout]
    rfl

/-- A cycle of strict formulas is one of the sheet, or one of them holds an error of its own. -/
theorem path_of_chain (h : l.Consistent) (hab : TransGen l.sheet.HandsOn a b) :
    TransGen (l.sheet.Reads Registry.builtin) (.cell a) (.cell b)
      ∨ (l.sheet.stored a).isError = true := by
  induction hab using TransGen.head_induction_on with
  | single hstep => exact h.path_of_handsOn hstep
  | head hstep _ ih =>
      rcases h.path_of_handsOn hstep with hpath | herror
      · exact ih.imp hpath.trans (h.isError_of_handsOn hstep)
      · exact Or.inr herror

theorem isError_of_cycle (h : l.Consistent)
    (hb : TransGen (l.sheet.Reads Registry.builtin) (.cell b) (.cell b)
      ∨ TransGen l.sheet.HandsOn b b) : (l.sheet.stored b).isError = true := by
  have hcycle : TransGen (l.sheet.Reads Registry.builtin) (.cell b) (.cell b)
      ∨ (l.sheet.stored b).isError = true := hb.elim Or.inl h.path_of_chain
  refine hcycle.elim (fun hpath => ?_) id
  rw [h.stored_eq_error hpath]
  rfl

end LoadedSheet.Consistent

namespace Engine

/-- Whatever an engine without plugins has been asked, a strict formula shows an error if it refers
to a cell that shows one or is not there. So do all strict formulas that lead by way of others to
a cycle, be it one of the sheet or one of strict formulas. -/
theorem run_error_shown (csv : Csv.ReadOptions) (requests : List Request) {l : LoadedSheet}
    (hl : ((ofConfig ⟨[], csv⟩).run requests).sheet = some l) :
    let e := (ofConfig ⟨[], csv⟩).run requests
    (∀ a x target, l.sheet.formulaAt a = some x → x.isStrict = true → target ∈ x.references a →
        (∀ b ∈ target, ∀ v, e.getAt b = .ok v → v.isError = true) →
        ∃ kind, e.getAt a = .ok (.error kind))
      ∧ ∀ a b x, l.sheet.formulaAt a = some x → ReflTransGen l.sheet.HandsOn a b →
        (TransGen (l.sheet.Reads Registry.builtin) (.cell b) (.cell b)
          ∨ TransGen l.sheet.HandsOn b b) →
        ∃ kind, e.getAt a = .ok (.error kind) := by
  intro e
  have h : l.Consistent := ((sound_ofConfig csv).run requests).sheet l hl
  have hshown : ∀ a x, l.sheet.formulaAt a = some x → (l.sheet.stored a).isError = true →
      ∃ kind, e.getAt a = .ok (.error kind) := by
    intro a x hx herror
    obtain ⟨kind, hkind⟩ := Value.isError_iff.mp herror
    refine ⟨kind, ?_⟩
    rw [getAt_of_sheet hl, h.labelled.valueAt_eq (h.labelled.inBounds_of_formulaAt hx), hkind]
  refine ⟨fun a x target hx hstrict htarget herror => ?_, fun a b x hx hchain hcycle => ?_⟩
  · refine hshown a x hx (h.isError_of_reference hx hstrict htarget ?_)
    exact l.sheet.isError_of_valueAt h.labelled fun b hb v hv =>
      herror b hb v ((getAt_of_sheet hl b).trans hv)
  · exact hshown a x hx (h.isError_of_chain hchain (h.isError_of_cycle hcycle))

/-- A missing value is summed up in a range, and so is a formula that reads itself. -/
theorem run_error_shown_sums :
    let requests := [.load [["=#N/A", "=-SUM(C1,A1:A2)"], ["p", "=B2&A2", "=SUM(B1:B2)&A2"]],
      .setAt ⟨0, 0, 1⟩ "q"]
    let e := (ofConfig ⟨[], Csv.ReadOptions.standard⟩).run requests
    (∃ kind, e.getAt ⟨0, 1, 0⟩ = .ok (.error kind))
      ∧ ∃ kind, e.getAt ⟨0, 2, 1⟩ = .ok (.error kind) := by
  intro requests e
  let sum : Address := ⟨0, 1, 0⟩
  let circular : Address := ⟨0, 1, 1⟩
  let last : Address := ⟨0, 2, 1⟩
  have hfacts : (e.sheet.any fun l =>
      ((l.sheet.formulaAt sum).any fun x =>
        x.isStrict && (x.references sum).contains (some ⟨0, 0, 0⟩))
      && ((l.sheet.formulaAt circular).any fun x =>
        x.isStrict && (x.references circular).contains (some circular))
      && ((l.sheet.formulaAt last).any fun x =>
        x.isStrict && (x.references last).contains (some circular))) = true := by decide +kernel
  have hmissing : (e.getAt ⟨0, 0, 0⟩).toOption.any Value.isError = true := by decide +kernel
  obtain ⟨l, hl, hfacts⟩ := (Option.any_eq_true _ _).mp hfacts
  rw [Bool.and_eq_true_iff, Bool.and_eq_true_iff] at hfacts
  obtain ⟨⟨hsum, hcircular⟩, hlast⟩ := hfacts
  obtain ⟨x, hx, hsum⟩ := (Option.any_eq_true _ _).mp hsum
  obtain ⟨y, hy, hcircular⟩ := (Option.any_eq_true _ _).mp hcircular
  obtain ⟨z, hz, hlast⟩ := (Option.any_eq_true _ _).mp hlast
  rw [Bool.and_eq_true_iff, List.contains_iff_mem] at hsum hcircular hlast
  obtain ⟨hreferring, hchained⟩ := run_error_shown Csv.ReadOptions.standard requests hl
  constructor
  · refine hreferring sum x _ hx hsum.1 hsum.2 fun b hb v hv => ?_
    obtain rfl := Option.some.inj hb
    rw [hv] at hmissing
    exact hmissing
  · exact hchained last circular z hz (.single ⟨z, hz, hlast⟩)
      (Or.inr (.single ⟨y, hy, hcircular⟩))

end Engine

end Recalc
