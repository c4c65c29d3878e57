import Recalc.Proofs.Evaluation.Calls
import Recalc.Sheet

/-!
# Dependencies are complete

Two sheets of the same size may differ in every cell that a formula does not name: the formula has
the same value on both.
-/

namespace Recalc

theorem Value.text?_inj {v w : Value} {s : String} (hv : v.text? = some s) (hw : w.text? = some s) :
    v = w := by
  cases v <;> cases w <;> simp_all [text?]

namespace Sheet

/-- The sheet has a vertex with an empty cache for each range that a formula names and that stays on
the sheet, and no vertex for those that leave it. -/
structure ReadyFor (s : Sheet) (dependencies : List Dependency) : Prop where
  vertex : ∀ r, .range r ∈ dependencies → s.cells.rangeInBounds r = true →
    ∃ id, s.ranges.get? r = some id ∧ (s.store.get? id).bind Vertex.range? = some r
      ∧ (s.store.caches.get id).isFilled = false
  none : ∀ r, .range r ∈ dependencies → s.cells.rangeInBounds r = false →
    s.view.rangeVertex? r = none

/-- On a sheet that is ready for a formula, the formula has its meaning. -/
theorem evaluate_eq_meaning {s : Sheet} {x : Expr} {home : Address}
    (ready : s.ReadyFor (x.dependencies Registry.builtin.shapeOnly home)) :
    (s.evaluate (x.evaluate Registry.builtin home)).1 = x.meaning s.view.grid home := by
  let needed : Range → Prop := fun r =>
    .range r ∈ x.dependencies Registry.builtin.shapeOnly home
  have serves : s.view.Serves needed := by
    refine ⟨fun r hr hin => ?_, ready.none⟩
    obtain ⟨id, hget, hvertex, -⟩ := ready.vertex r hr hin
    exact ⟨id, hget, Vertex.eq_of_range? hvertex⟩
  have caches : s.view.TrueCaches needed s.store.caches := by
    intro r id hr hget hvertex
    by_cases hin : s.cells.rangeInBounds r = true
    · obtain ⟨id', hget', -, hcache⟩ := ready.vertex r hr hin
      obtain rfl := Option.some.inj (hget.symm.trans hget')
      exact RangeCache.holds_of_not_filled hcache _ _
    · have hnone := ready.none r hr (Bool.eq_false_iff.mpr hin)
      simp [View.rangeVertex?, hget, hvertex, Vertex.range?] at hnone
  exact (Expr.gives_evaluate serves home x (fun r hr => hr) s.store.caches caches).1

/-- A formula reads nothing that it does not name. -/
theorem evaluate_eq_of_agree (x : Expr) (home : Address) (s t : Sheet)
    (sheet : s.cells.sheet = t.cells.sheet) (width : s.cells.width = t.cells.width)
    (height : s.cells.height = t.cells.height)
    (readyS : s.ReadyFor (x.dependencies Registry.builtin.shapeOnly home))
    (readyT : t.ReadyFor (x.dependencies Registry.builtin.shapeOnly home))
    (agree : ∀ d ∈ x.dependencies Registry.builtin.shapeOnly home, ∀ a ∈ d.addresses,
      s.view.cellValue a = t.view.cellValue a) :
    (s.evaluate (x.evaluate Registry.builtin home)).1
      = (t.evaluate (x.evaluate Registry.builtin home)).1 := by
  have hbounds : s.view.grid.inBounds = t.view.grid.inBounds := by
    funext a
    simp only [View.grid, view, CellMap.inBounds, sheet, width, height]
  calc (s.evaluate (x.evaluate Registry.builtin home)).1
      = x.meaning s.view.grid home := evaluate_eq_meaning readyS
    _ = x.meaning t.view.grid home := x.meaning_congr ⟨hbounds, fun d hd _ => agree d hd⟩
    _ = (t.evaluate (x.evaluate Registry.builtin home)).1 := (evaluate_eq_meaning readyT).symm

/-- The sheet of typed contents, or a blank one where it cannot be built. -/
def ofText (rows : List (List String)) : Sheet :=
  match ofRows Registry.builtin 0 rows with
  | .ok s => s
  | .error _ => blank 0 0 0

/-- The formula `=VLOOKUP(A1,A1:B1,2)&SUM(A9:B9)&COLUMNS(C1:C2)` in `C1`. -/
def namesRow : Expr :=
  .binary .concat
    (.binary .concat
      (.call "vlookup" [.cell ⟨-2, 0⟩, .range ⟨⟨-2, 0⟩, ⟨-1, 0⟩⟩, .number 2])
      (.call "SUM" [.range ⟨⟨-2, 8⟩, ⟨-1, 8⟩⟩]))
    (.call "COLUMNS" [.range ⟨⟨0, 0⟩, ⟨0, 1⟩⟩])

theorem dependencies_namesRow :
    namesRow.dependencies Registry.builtin.shapeOnly ⟨0, 2, 0⟩ = [.cell ⟨0, 0, 0⟩,
      .range (Range.spanning ⟨0, 0, 0⟩ 2 1), .range (Range.spanning ⟨0, 0, 8⟩ 2 1)] := by
  decide +kernel

/-- A sheet that has the formula's range in its first row and, in both cells of it, a text. -/
def HoldsRow (s : Sheet) (id : VertexId) (first second : String) : Prop :=
  let row := Range.spanning ⟨0, 0, 0⟩ 2 1
  let below := Range.spanning ⟨0, 0, 8⟩ 2 1
  (s.cells.sheet = 0 ∧ s.cells.width = 3 ∧ s.cells.height = 2) ∧
  (s.ranges.get? row = some id ∧ (s.store.get? id).bind Vertex.range? = some row
    ∧ (s.store.caches.get id).isFilled = false) ∧
  s.ranges.get? below = none ∧
  (s.view.cellValue ⟨0, 0, 0⟩).text? = some first ∧ (s.view.cellValue ⟨0, 1, 0⟩).text? = some second

instance (s : Sheet) (id : VertexId) (first second : String) :
    Decidable (s.HoldsRow id first second) := by
  unfold HoldsRow
  infer_instance

namespace HoldsRow

variable {s t : Sheet} {id other : VertexId} {first second : String}

theorem inBounds_iff (h : s.HoldsRow id first second) (a : Address) :
    s.cells.inBounds a = true ↔ a.sheet = 0 ∧ a.col < 3 ∧ a.row < 2 := by
  rw [CellMap.inBounds_iff, h.1.1, h.1.2.1, h.1.2.2]

theorem readyFor (h : s.HoldsRow id first second) :
    s.ReadyFor (namesRow.dependencies Registry.builtin.shapeOnly ⟨0, 2, 0⟩) := by
  have hbelow : s.cells.rangeInBounds (Range.spanning ⟨0, 0, 8⟩ 2 1) = false := by
    rw [Bool.eq_false_iff, ne_eq, CellMap.rangeInBounds, Bool.and_eq_true, h.inBounds_iff]
    intro hin
    exact absurd hin.1.2.2 (by decide)
  have hrow : s.cells.rangeInBounds (Range.spanning ⟨0, 0, 0⟩ 2 1) = true := by
    rw [CellMap.rangeInBounds, Bool.and_eq_true, h.inBounds_iff, h.inBounds_iff]
    decide
  obtain ⟨-, hvertex, hnone, -⟩ := h
  have hranges : ∀ r, .range r ∈ namesRow.dependencies Registry.builtin.shapeOnly ⟨0, 2, 0⟩ →
      r = Range.spanning ⟨0, 0, 0⟩ 2 1 ∨ r = Range.spanning ⟨0, 0, 8⟩ 2 1 := by
    simp [dependencies_namesRow]
  constructor
  · intro r hr hin
    rcases hranges r hr with rfl | rfl
    · exact ⟨id, hvertex⟩
    · exact absurd hin (Bool.eq_false_iff.mp hbelow)
  · intro r hr hout
    rcases hranges r hr with rfl | rfl
    · exact absurd hrow (Bool.eq_false_iff.mp hout)
    · simp [View.rangeVertex?, view, hnone]

theorem cellValue_eq (hs : s.HoldsRow id first second) (ht : t.HoldsRow other first second) :
    ∀ d ∈ namesRow.dependencies Registry.builtin.shapeOnly ⟨0, 2, 0⟩, ∀ a ∈ d.addresses,
      s.view.cellValue a = t.view.cellValue a := by
  have hcells : ∀ d ∈ namesRow.dependencies Registry.builtin.shapeOnly ⟨0, 2, 0⟩,
      ∀ a ∈ d.addresses, a = ⟨0, 0, 0⟩ ∨ a = ⟨0, 1, 0⟩ ∨ 2 ≤ a.row := by
    rw [dependencies_namesRow]
    decide +kernel
  intro d hd a ha
  rcases hcells d hd a ha with rfl | rfl | hrow
  · exact Value.text?_inj hs.2.2.2.1 ht.2.2.2.1
  · exact Value.text?_inj hs.2.2.2.2 ht.2.2.2.2
  · rw [View.cellValue_eq_error, View.cellValue_eq_error]
    · intro hin
      exact absurd ((ht.inBounds_iff a).mp hin).2.2 (by omega)
    · intro hin
      exact absurd ((hs.inBounds_iff a).mp hin).2.2 (by omega)

end HoldsRow

/-- Two sheets that differ in the second row, which the formula does not name. -/
theorem evaluate_eq_of_agree_namesRow :
    let s := ofText [["p", "q", "=VLOOKUP(A1,A1:B1,2)"], ["r", "s", "t"]]
    let t := ofText [["p", "q", "=MATCH(A1,A1:B1)"], ["u", "=C1"]]
    s.HoldsRow ⟨6⟩ "p" "q" ∧ t.HoldsRow ⟨5⟩ "p" "q"
      ∧ (s.evaluate (namesRow.evaluate Registry.builtin ⟨0, 2, 0⟩)).1
        = (t.evaluate (namesRow.evaluate Registry.builtin ⟨0, 2, 0⟩)).1 := by
  intro s t
  have hs : s.HoldsRow ⟨6⟩ "p" "q" := by decide +kernel
  have ht : t.HoldsRow ⟨5⟩ "p" "q" := by decide +kernel
  refine ⟨hs, ht, evaluate_eq_of_agree namesRow ⟨0, 2, 0⟩ s t ?_ ?_ ?_ hs.readyFor ht.readyFor
    (hs.cellValue_eq ht)⟩
  · rw [hs.1.1, ht.1.1]
  · rw [hs.1.2.1, ht.1.2.1]
  · rw [hs.1.2.2, ht.1.2.2]

end Sheet

end Recalc
