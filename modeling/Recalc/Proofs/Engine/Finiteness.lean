import Recalc.Proofs.Engine.Fetching
import Recalc.Proofs.Evaluation.Finiteness
import Recalc.Proofs.Sheet.Circularity

/-!
# Infinite numbers come from formulas

Typed content, arithmetic and functions have their numbers checked, so a sheet shows a number that
is not finite only where a formula is written with a numeral that no double can hold, or where the
value of such a formula is taken over. What is not a number at all is never shown.
-/

namespace Recalc

open Relation

theorem Sheet.finite_constantOf (raw : String) : (constantOf raw).Finite := by
  rw [constantOf]
  split
  · trivial
  · exact Value.finite_ofContent raw

theorem Sheet.Proper.stored {s : Sheet} (h : s.Proper) (a : Address) : (s.stored a).Proper := by
  rw [Sheet.stored]
  cases hv : s.vertexAt a with
  | none => trivial
  | some v =>
      obtain ⟨id, -, hid⟩ := Option.bind_eq_some_iff.mp hv
      have hproper := h.vertex id v hid
      cases v with
      | value v => exact hproper
      | formula x home shown => exact hproper.2
      | range | blank => trivial

/-- The value of a cell is taken, perhaps by way of others, from a formula that is written with a
number that is not finite. -/
def Sheet.TakesInfinite (s : Sheet) (a : Address) : Prop :=
  ∃ b x n, ReflTransGen (DependsOn (s.TakesFrom Registry.builtin)) a b
    ∧ s.formulaAt b = some x ∧ n ∈ x.numbers ∧ n.isFinite = false

/-- On a solved sheet a value is finite unless it is taken from an infinite number. -/
theorem LoadedSheet.Consistent.finite_stored {l : LoadedSheet} (h : l.Consistent)
    {rows : List (List String)} (hrows : l.sheet.Holding rows) (a : Address) :
    (l.sheet.stored a).Finite ∨ l.sheet.TakesInfinite a := by
  induction a using h.cell_induct with
  | constant a hx =>
      rw [Sheet.stored_eq_constantAt hx, hrows.constantAt]
      exact Or.inl (Sheet.finite_constantOf _)
  | cycled a hcycle =>
      rw [h.stored_eq_error hcycle]
      exact Or.inl trivial
  | formula a x hx hcycle ih =>
      by_cases hnumbers : ∀ n ∈ x.numbers, n.isFinite = true
      · by_cases hinputs : ∀ d, l.sheet.TakesFrom Registry.builtin a d →
          ∀ b ∈ d.addresses, (l.sheet.stored b).Finite
        · rw [h.stored_eq_meaning hx hcycle]
          exact Or.inl (x.finite_meaning_of_inputs (fun d hd hcovers =>
            hinputs d ⟨x, hx, hd, (l.sheet.grid_covers_iff d).mp hcovers⟩) hnumbers)
        · push Not at hinputs
          obtain ⟨d, htakes, b, hb, hinfinite⟩ := hinputs
          obtain ⟨c, y, n, hpath, hy⟩ := (ih d htakes b hb).resolve_left hinfinite
          exact Or.inr ⟨c, y, n, hpath.head ⟨d, htakes, hb⟩, hy⟩
      · push Not at hnumbers
        obtain ⟨n, hn, hinfinite⟩ := hnumbers
        exact Or.inr ⟨a, x, n, .refl, hx, hn, Bool.eq_false_iff.mpr hinfinite⟩

namespace Engine

/-- An engine whose sheet holds the contents of some rows. -/
structure Held (e : Engine) : Prop extends e.Sound where
  rows : ∀ l, e.sheet = some l → ∃ rows, l.sheet.Holding rows

variable {e : Engine}

theorem Held.load (h : e.Held) (rows : List (List String)) : (e.load rows).2.Held := by
  refine ⟨h.toSound.load rows, fun l hl => ?_⟩
  obtain ⟨-, -, -, -, failure, hload⟩ | ⟨l', hload, hholding, -⟩ := load_cases h.functions rows
  · rw [hload] at hl
    cases hl
  · rw [hload] at hl
    exact ⟨rows, Option.some.inj hl ▸ hholding⟩

theorem Held.setAt (h : e.Held) (a : Address) (content : String) : (e.setAt a content).2.Held := by
  refine ⟨h.toSound.setAt a content, fun m hm => ?_⟩
  cases hl : e.sheet with
  | none =>
      obtain ⟨failure, hfail⟩ := setAt_of_none hl a content
      rw [hfail, hl] at hm
      cases hm
  | some l =>
      obtain ⟨haccepts, l', hset, hedited, -⟩ | ⟨-, failure, hfail⟩ :=
        h.toSound.setAt_cases hl a content
      · rw [hset] at hm
        obtain ⟨rows, hrows⟩ := h.rows l hl
        exact ⟨_, Option.some.inj hm ▸ hrows.edited haccepts.content hedited⟩
      · rw [hfail] at hm
        exact h.rows m hm

theorem Held.recompute (h : e.Held) : e.recompute.2.Held := by
  refine ⟨h.toSound.recompute, fun m hm => ?_⟩
  cases hl : e.sheet with
  | none =>
      rw [recompute_of_none hl, hl] at hm
      cases hm
  | some l =>
      obtain ⟨t, ht, hshown, -⟩ := recompute_eq_ok h.functions hl (h.sheet l hl).toReady
      rw [ht] at hm
      obtain ⟨rows, hrows⟩ := h.rows l hl
      exact ⟨rows, Option.some.inj hm ▸ hrows.reshown (h.sheet l hl).labelled hshown⟩

/-- Whatever has been asked, what the sheet holds is what could be loaded. -/
theorem held_run (csv : Csv.ReadOptions) (requests : List Request) :
    ((ofConfig ⟨[], csv⟩).run requests).Held :=
  run_invariant (fun _ rows h => h.load rows) (fun _ a content h => h.setAt a content)
    (fun _ h => h.recompute) ⟨sound_ofConfig csv, nofun⟩ requests

theorem eq_of_getElem?_map_range {α : Type} {f : Nat → α} {n i : Nat} {x : α}
    (h : ((List.range n).map f)[i]? = some x) : x = f i := by
  rw [List.getElem?_map] at h
  obtain ⟨j, hj, rfl⟩ := Option.map_eq_some_iff.mp h
  obtain ⟨hi, rfl⟩ := List.getElem?_eq_some_iff.mp hj
  rw [List.getElem_range]

/-- The values of a sheet are what its cells hold, row by row. -/
theorem eq_stored_of_values {l : LoadedSheet} (hl : e.sheet = some l) (h : l.Consistent)
    {grid : List (List Value)} (hgrid : e.values = .ok grid) {row col : Nat} {entries : List Value}
    {v : Value} (hentries : grid[row]? = some entries) (hv : entries[col]? = some v) :
    v = l.sheet.stored ⟨l.sheet.cells.sheet, col, row⟩ := by
  rw [values_of_sheet hl, h.labelled.values_eq] at hgrid
  obtain rfl := Except.ok.inj hgrid
  obtain rfl := eq_of_getElem?_map_range hentries
  exact eq_of_getElem?_map_range hv

/-- Whatever an engine without plugins has been asked, no number that it shows is none, and one is
infinite only if its cell takes it from a formula with a number in it that is not finite. -/
theorem run_values_finite (csv : Csv.ReadOptions) (requests : List Request)
    {grid : List (List Value)} (hgrid : ((ofConfig ⟨[], csv⟩).run requests).values = .ok grid)
    {row col : Nat} {entries : List Value} {x : Float} (hentries : grid[row]? = some entries)
    (hx : entries[col]? = some (.number x)) :
    x.isNaN = false ∧ (x.isFinite = true ∨ ∃ l,
      ((ofConfig ⟨[], csv⟩).run requests).sheet = some l ∧ l.sheet.TakesInfinite ⟨0, col, row⟩) := by
  cases hl : ((ofConfig ⟨[], csv⟩).run requests).sheet with
  | none =>
      rw [values, loaded, hl] at hgrid
      cases hgrid
  | some l =>
      have hheld := held_run csv requests
      have hproper := proper_run csv requests
      have h := hheld.sheet l hl
      obtain ⟨rows, hrows⟩ := hheld.rows l hl
      have hstored := eq_stored_of_values hl h hgrid hentries hx
      rw [hrows.sheet] at hstored
      constructor
      · have hnumber := (hproper.proper l hl).stored ⟨0, col, row⟩
        rwa [← hstored] at hnumber
      · rcases h.finite_stored hrows ⟨0, col, row⟩ with hfinite | hinfinite
        · rw [← hstored] at hfinite
          exact Or.inl hfinite
        · exact Or.inr ⟨l, rfl, hinfinite⟩

/-- A number that passes a test is among the values. -/
theorem exists_number_of_any {p : Float → Bool} {row col : Nat}
    (h : (e.values.toOption.any fun grid => grid[row]?.any fun entries => entries[col]?.any fun v =>
      v.number?.any p) = true) :
    ∃ grid entries x, e.values = .ok grid ∧ grid[row]? = some entries
      ∧ entries[col]? = some (.number x) ∧ p x = true := by
  obtain ⟨grid, hgrid, h⟩ := (Option.any_eq_true _ _).mp h
  obtain ⟨entries, hentries, h⟩ := (Option.any_eq_true _ _).mp h
  obtain ⟨v, hv, h⟩ := (Option.any_eq_true _ _).mp h
  obtain ⟨x, hx, h⟩ := (Option.any_eq_true _ _).mp h
  exact ⟨grid, entries, x, eq_ok_of_toOption hgrid, hentries, Value.eq_of_number? hx ▸ hv, h⟩

/-- A value that is not finite is negated in another cell. -/
theorem run_values_finite_negated :
    let e := (ofConfig ⟨[], Csv.ReadOptions.standard⟩).run [.load [["=-B1", "=1e999"]]]
    ∃ grid entries x l, e.values = .ok grid ∧ grid[0]? = some entries ∧ entries[0]? = some (.number x)
      ∧ x.isFinite = false ∧ x.isNaN = false ∧ e.sheet = some l
      ∧ l.sheet.TakesInfinite ⟨0, 0, 0⟩ := by
  intro e
  have hfacts : (e.values.toOption.any fun grid => grid[0]?.any fun entries => entries[0]?.any fun v =>
      v.number?.any fun x => decide (x.isFinite = false)) = true := by decide +kernel
  obtain ⟨grid, entries, x, hgrid, hentries, hx, hinfinite⟩ := exists_number_of_any hfacts
  have hinfinite := of_decide_eq_true hinfinite
  obtain ⟨hnumber, hsource⟩ := run_values_finite Csv.ReadOptions.standard _ hgrid hentries hx
  obtain ⟨l, hl, htakes⟩ := hsource.resolve_left (Bool.eq_false_iff.mp hinfinite)
  exact ⟨grid, entries, x, l, hgrid, hentries, hx, hinfinite, hnumber, hl, htakes⟩

/-- A formula that is a numeral too large for a double is loaded, and its cell shows infinity. -/
theorem values_infinite_numeral :
    let e := (ofConfig ⟨[], Csv.ReadOptions.standard⟩).run [.load [["=1e999"]]]
    ∃ grid entries x, e.values = .ok grid ∧ grid[0]? = some entries ∧ entries[0]? = some (.number x)
      ∧ x.isFinite = false := by
  intro e
  have hfacts : (e.values.toOption.any fun grid => grid[0]?.any fun entries => entries[0]?.any fun v =>
      v.number?.any fun x => decide (x.isFinite = false)) = true := by decide +kernel
  obtain ⟨grid, entries, x, hgrid, hentries, hx, hinfinite⟩ := exists_number_of_any hfacts
  exact ⟨grid, entries, x, hgrid, hentries, hx, of_decide_eq_true hinfinite⟩

end Engine

end Recalc
