import Recalc.Proofs.Sheet.Editing

/-!
# Solved sheets

A sheet is solved when each cell holds what its formula means over the values of all cells. The
formulas, the typed values and the size of a sheet leave no choice: two solved sheets that have them
in common hold the same values, whatever vertices and arrows they were built with.
-/

namespace Recalc

open Relation

namespace Sheet

/-- The value that a cell holds, blank where nothing occupies it. -/
def stored (s : Sheet) (a : Address) : Value :=
  match s.vertexAt a with
  | some v => v.value?.getD .empty
  | none => .empty

/-- The cells of a sheet with the values that they hold. -/
def grid (s : Sheet) : Grid := ⟨s.cells.inBounds, s.stored⟩

variable {functions : Registry} {s t : Sheet} {o : Order VertexId} {id : VertexId} {x : Expr}
  {a : Address} {shown : Value}

theorem Labelled.cellValue_eq_stored (h : s.Labelled) {a : Address}
    (ha : s.cells.inBounds a = true) : s.view.cellValue a = s.stored a := by
  rw [stored, vertexAt]
  cases hfind : s.find? (.cell a) with
  | none => exact cellValue_of_find?_eq_none ha hfind
  | some id =>
      obtain ⟨v, hv, hfits⟩ := h.fits _ id hfind
      rw [cellValue_of_find? ha hfind, Option.bind_some, hv]
      cases v with
      | range => exact hfits.elim
      | _ => rfl

theorem Labelled.meaning_grid (h : s.Labelled) (x : Expr) (home : Address) :
    x.meaning s.view.grid home = x.meaning s.grid home :=
  x.meaning_congr ⟨rfl, fun _ _ hcovers a ha => h.cellValue_eq_stored (hcovers a ha)⟩

theorem Labelled.stored_of_formula (h : s.Labelled)
    (hid : s.store.get? id = some (.formula x a shown)) : s.stored a = shown := by
  rw [stored, vertexAt, h.find?_home hid, Option.bind_some, hid]
  rfl

theorem stored_eq_constantAt (ha : s.formulaAt a = none) : s.stored a = s.constantAt a := by
  rw [formulaAt] at ha
  rw [stored, constantAt]
  cases hv : s.vertexAt a with
  | none => rfl
  | some v =>
      rw [hv] at ha
      cases v with
      | formula => cases ha
      | _ => rfl

/-- A path between vertices is a path between what they stand for. -/
theorem Linked.transGen_edge_iff {reads : Dependency → Dependency → Prop} (h : s.Linked reads)
    {d e : Dependency} {u v : VertexId} (hu : s.find? d = some u) (hv : s.find? e = some v) :
    TransGen s.graph.Edge u v ↔ TransGen reads e d := by
  constructor
  · intro huv
    induction huv generalizing e with
    | single hedge =>
        obtain ⟨e', d', hread, hv', hu'⟩ := (h.edge_iff _ _).mp hedge
        rw [h.labelled.inj _ _ _ hv hv', h.labelled.inj _ _ _ hu hu']
        exact TransGen.single hread
    | tail _ hedge ih =>
        obtain ⟨e', d', hread, hv', hw⟩ := (h.edge_iff _ _).mp hedge
        rw [h.labelled.inj _ _ _ hv hv']
        exact TransGen.head hread (ih hw)
  · intro hde
    induction hde generalizing u with
    | single hread => exact TransGen.single ((h.edge_iff _ _).mpr ⟨_, _, hread, hv, hu⟩)
    | tail _ hread ih =>
        obtain ⟨w, hw⟩ := h.reader _ _ hread
        exact TransGen.head ((h.edge_iff _ _).mpr ⟨_, _, hread, hw, hu⟩) (ih hw)

/-- What is set aside stands for what reads itself. -/
theorem Passable.mem_cycled_iff (h : s.Passable functions o) {d : Dependency}
    (hid : s.find? d = some id) : id ∈ o.cycled ↔ TransGen (s.Reads functions) d d := by
  rw [h.arranges.mem_cycled_iff, Graph.OnCycle, h.wired.transGen_edge_iff hid hid]

/-- What reads itself has a vertex. -/
theorem Linked.exists_find? {reads : Dependency → Dependency → Prop} (h : s.Linked reads)
    {d e : Dependency} (hpath : TransGen reads d e) : ∃ id, s.find? d = some id := by
  obtain ⟨f, hread, -⟩ := TransGen.head'_iff.mp hpath
  exact h.reader d f hread

/-! ## Values that are shown -/

theorem Labelled.valueAt_eq (h : s.Labelled) (ha : s.cells.inBounds a = true) :
    s.valueAt a = .ok (s.stored a) := by
  rw [valueAt, CellMap.get, if_pos ha, stored, vertexAt]
  cases hfind : s.find? (.cell a) with
  | none =>
      rw [show s.cells.vertices[a]? = none from hfind]
      rfl
  | some id =>
      obtain ⟨v, hv, hfits⟩ := h.fits _ id hfind
      rw [show s.cells.vertices[a]? = some id from hfind]
      simp only [bind, Except.bind, hv, Option.bind_some]
      cases v with
      | range => exact hfits.elim
      | _ => rfl

/-- All values of a sheet can be shown. -/
theorem Labelled.values_eq (h : s.Labelled) :
    s.values = .ok ((List.range s.cells.height).map fun y =>
      (List.range s.cells.width).map fun x => s.stored ⟨s.cells.sheet, x, y⟩) := by
  refine mapM_eq_ok fun y hy => mapM_eq_ok fun x hx => h.valueAt_eq ?_
  exact CellMap.inBounds_iff.mpr ⟨rfl, List.mem_range.mp hx, List.mem_range.mp hy⟩

/-! ## Sheets with the same formulas -/

/-- The value of a formula is taken from a cell or a range, all of which is on the sheet. The
arguments of functions that look at shapes only do not count. -/
def TakesFrom (functions : Registry) (s : Sheet) (a : Address) (d : Dependency) : Prop :=
  ∃ x, s.formulaAt a = some x ∧ d ∈ x.inputs functions.shapeOnly a ∧ s.Covers d

/-- The sheets have the same size and the same formulas. -/
structure SameFormulas (s t : Sheet) : Prop where
  sheet : t.cells.sheet = s.cells.sheet
  width : t.cells.width = s.cells.width
  height : t.cells.height = s.cells.height
  formulaAt : ∀ a, t.formulaAt a = s.formulaAt a

namespace SameFormulas

theorem inBounds (h : s.SameFormulas t) : t.cells.inBounds = s.cells.inBounds := by
  funext a
  rw [CellMap.inBounds, CellMap.inBounds, h.sheet, h.width, h.height]

theorem covers_iff (h : s.SameFormulas t) (d : Dependency) : t.Covers d ↔ s.Covers d := by
  cases d with
  | cell a => rw [Covers, Covers, h.inBounds]
  | range r =>
      rw [Covers, Covers, CellMap.rangeInBounds, CellMap.rangeInBounds, h.inBounds]

theorem reads_iff (h : s.SameFormulas t) (functions : Registry) (e d : Dependency) :
    t.Reads functions e d ↔ s.Reads functions e d := by
  simp only [Reads, h.formulaAt, h.covers_iff]

theorem reads_eq (h : s.SameFormulas t) (functions : Registry) :
    t.Reads functions = s.Reads functions :=
  funext fun e => funext fun d => propext (h.reads_iff functions e d)

/-- A sheet has formulas only on cycles if another one with its formulas has. -/
theorem passable (h : s.SameFormulas t) (hs : s.Passable functions o)
    (ht : t.Wired (t.Reads functions)) : t.Passable functions t.order := by
  have harranges : t.graph.Arranges t.order := ht.labelled.graph.arranges_sort
  refine ⟨ht, harranges, fun id hid => ?_⟩
  have hcycle := (harranges.mem_cycled_iff id).mp hid
  have hlt : id.index < t.store.size := by
    rw [← ht.labelled.contains_iff, ← ht.labelled.graph.mem_toList_iff, ← harranges.perm.mem_iff]
    exact List.mem_append_right _ hid
  obtain ⟨d, hd⟩ := ht.labelled.label id hlt
  have hpath := (ht.transGen_edge_iff hd hd).mp hcycle
  rw [h.reads_eq] at hpath
  obtain ⟨j, hj⟩ := hs.wired.exists_find? hpath
  obtain ⟨x, home, shown, hget⟩ := hs.formulas j ((hs.mem_cycled_iff hj).mpr hpath)
  obtain rfl : .cell home = d :=
    hs.wired.labelled.inj _ _ _ (hs.wired.labelled.find?_home hget) hj
  have hx := hs.wired.labelled.formulaAt_eq_some_iff.mpr ⟨j, shown, hget⟩
  rw [← h.formulaAt, ht.labelled.formulaAt_eq_some_iff] at hx
  obtain ⟨k, shown', hk⟩ := hx
  obtain rfl := Option.some.inj (hd.symm.trans (ht.labelled.find?_home hk))
  exact ⟨x, home, shown', hk⟩

/-- A cell with the same value shows it, and where there is no cell the same is answered. -/
theorem valueAt_eq (h : s.SameFormulas t) (hs : s.Labelled) (ht : t.Labelled)
    (hstored : t.stored a = s.stored a) : t.valueAt a = s.valueAt a := by
  by_cases ha : s.cells.inBounds a = true
  · rw [hs.valueAt_eq ha, ht.valueAt_eq (h.inBounds ▸ ha), hstored]
  · rw [valueAt, valueAt, CellMap.get, CellMap.get, h.inBounds, h.width, h.height, if_neg ha,
      if_neg ha]
    rfl

end SameFormulas

/-- The sheets have the same size, the same formulas and the same typed values. -/
structure SameContents (s t : Sheet) : Prop extends s.SameFormulas t where
  constantAt : ∀ a, t.constantAt a = s.constantAt a

end Sheet

namespace LoadedSheet

/-- A sheet on which passes succeed and the last one has done its work. -/
structure Consistent (l : LoadedSheet) : Prop extends l.Ready Registry.builtin where
  solved : l.sheet.Solved l.order
  coherent : l.sheet.Coherent

namespace Consistent

variable {l m : LoadedSheet} {x : Expr} {a : Address}

theorem labelled (h : l.Consistent) : l.sheet.Labelled := h.passable.wired.labelled

/-- A cell that reads itself shows the cycle error. -/
theorem stored_eq_error (h : l.Consistent)
    (hcycle : TransGen (l.sheet.Reads Registry.builtin) (.cell a) (.cell a)) :
    l.sheet.stored a = .error .cycle := by
  obtain ⟨id, hid⟩ := h.passable.wired.exists_find? hcycle
  have hcyc := (h.passable.mem_cycled_iff hid).mpr hcycle
  obtain ⟨x, home, shown, hget⟩ := h.passable.formulas id hcyc
  obtain rfl : home = a :=
    Dependency.cell.inj (h.labelled.inj _ _ _ (h.labelled.find?_home hget) hid)
  rw [h.labelled.stored_of_formula hget, (h.solved id x home shown hget).1 hcyc]

/-- A formula that does not read its own cell shows its meaning. -/
theorem stored_eq_meaning (h : l.Consistent) (hx : l.sheet.formulaAt a = some x)
    (hcycle : ¬ TransGen (l.sheet.Reads Registry.builtin) (.cell a) (.cell a)) :
    l.sheet.stored a = x.meaning l.sheet.grid a := by
  obtain ⟨id, shown, hget⟩ := h.labelled.formulaAt_eq_some_iff.mp hx
  have hcyc : id ∉ l.order.cycled := fun hid =>
    hcycle ((h.passable.mem_cycled_iff (h.labelled.find?_home hget)).mp hid)
  rw [h.labelled.stored_of_formula hget, (h.solved id x a shown hget).2 hcyc,
    h.labelled.meaning_grid]

section Induction

-- What holds of the cells without formulas, of those on cycles, and of any other cell if it holds
-- of the cells that its value is taken from.
variable (h : l.Consistent) {q : Address → Prop}
  (constant : ∀ a, l.sheet.formulaAt a = none → q a)
  (cycled : ∀ a, TransGen (l.sheet.Reads Registry.builtin) (.cell a) (.cell a) → q a)
  (formula : ∀ a x, l.sheet.formulaAt a = some x →
    ¬ TransGen (l.sheet.Reads Registry.builtin) (.cell a) (.cell a) →
    (∀ d, l.sheet.TakesFrom Registry.builtin a d → ∀ b ∈ d.addresses, q b) → q a)
include h constant cycled formula

/-- The induction goes through the vertices in the order in which they are evaluated. -/
theorem of_sorted {done rest : List VertexId} (hcut : done ++ rest = l.order.sorted)
    {id : VertexId} (hdone : id ∈ done) (hid : l.sheet.find? (.cell a) = some id) : q a := by
  induction done using List.reverseRecOn generalizing rest id a with
  | nil => exact absurd hdone List.not_mem_nil
  | append_singleton done last ih =>
      rw [List.append_assoc, List.singleton_append] at hcut
      rcases List.mem_append.mp hdone with hmem | hlast
      · exact ih hcut hmem hid
      obtain rfl := List.mem_singleton.mp hlast
      cases hx : l.sheet.formulaAt a with
      | none => exact constant a hx
      | some x =>
          refine formula a x hx (fun hpath => ?_) ?_
          · exact h.passable.not_cycled hcut ((h.passable.mem_cycled_iff hid).mpr hpath)
          rintro d ⟨y, hy, hd, hcovers⟩ b hb
          obtain rfl := Option.some.inj (hx.symm.trans hy)
          obtain ⟨j, shown, hget⟩ := h.labelled.formulaAt_eq_some_iff.mp hx
          obtain rfl := Option.some.inj (hid.symm.trans (h.labelled.find?_home hget))
          cases hz : l.sheet.formulaAt b with
          | none => exact constant b hz
          | some z =>
              obtain ⟨k, shown', hget'⟩ := h.labelled.formulaAt_eq_some_iff.mp hz
              have hk := h.labelled.find?_home hget'
              by_cases hcyc : k ∈ l.order.cycled
              · exact cycled b ((h.passable.mem_cycled_iff hk).mp hcyc)
              · have hsorted := h.passable.sorted_of_not_cycled hk hcyc
                have hearlier :=
                  h.passable.cell_done hcut hget hdone (x.inputs_subset hd) hcovers hb hk hsorted
                exact ih hcut hearlier hk

/-- Induction over the cells of a solved sheet, along the references from which off the cycles
formulas take their values. -/
theorem cell_induct (a : Address) : q a := by
  cases hx : l.sheet.formulaAt a with
  | none => exact constant a hx
  | some x =>
      obtain ⟨id, shown, hget⟩ := h.labelled.formulaAt_eq_some_iff.mp hx
      have hid := h.labelled.find?_home hget
      by_cases hcyc : id ∈ l.order.cycled
      · exact cycled a ((h.passable.mem_cycled_iff hid).mp hcyc)
      · exact h.of_sorted constant cycled formula (List.append_nil l.order.sorted)
          (h.passable.sorted_of_not_cycled hid hcyc) hid

end Induction

section Uniqueness

variable (h : l.Consistent) (h' : m.Consistent) (hsame : l.sheet.SameFormulas m.sheet)
include hsame

omit h h' in
theorem stored_eq_of_no_formula (ha : l.sheet.formulaAt a = none)
    (hconstant : m.sheet.constantAt a = l.sheet.constantAt a) :
    m.sheet.stored a = l.sheet.stored a := by
  calc m.sheet.stored a = m.sheet.constantAt a :=
        Sheet.stored_eq_constantAt ((hsame.formulaAt a).trans ha)
    _ = l.sheet.constantAt a := hconstant
    _ = l.sheet.stored a := (Sheet.stored_eq_constantAt ha).symm

include h h'

theorem stored_eq_of_cycled
    (hcycle : TransGen (l.sheet.Reads Registry.builtin) (.cell a) (.cell a)) :
    m.sheet.stored a = l.sheet.stored a := by
  have hcycle' := hcycle
  rw [← hsame.reads_eq] at hcycle'
  calc m.sheet.stored a = .error .cycle := h'.stored_eq_error hcycle'
    _ = l.sheet.stored a := (h.stored_eq_error hcycle).symm

/-- Solved sheets with the same formulas hold the same values in cells that take theirs from one
another, if they have the typed values of these cells in common. -/
theorem stored_eq_of_closed {p : Address → Prop}
    (hclosed : ∀ a d, p a → l.sheet.TakesFrom Registry.builtin a d → ∀ b ∈ d.addresses, p b)
    (hconstant : ∀ a, p a → m.sheet.constantAt a = l.sheet.constantAt a) (ha : p a) :
    m.sheet.stored a = l.sheet.stored a := by
  refine h.cell_induct (q := fun a => p a → m.sheet.stored a = l.sheet.stored a)
    (fun a hx ha => stored_eq_of_no_formula hsame hx (hconstant a ha))
    (fun a hcycle _ => stored_eq_of_cycled h h' hsame hcycle) (fun a x hx hcycle ih ha => ?_) a ha
  have hcycle' := hcycle
  rw [← hsame.reads_eq] at hcycle'
  suffices hmeaning : x.meaning m.sheet.grid a = x.meaning l.sheet.grid a by
    calc m.sheet.stored a = x.meaning m.sheet.grid a :=
          h'.stored_eq_meaning ((hsame.formulaAt a).trans hx) hcycle'
      _ = x.meaning l.sheet.grid a := hmeaning
      _ = l.sheet.stored a := (h.stored_eq_meaning hx hcycle).symm
  refine x.meaning_congr_inputs ⟨hsame.inBounds, fun d hd hcovers b hb => ?_⟩
  have hcovers' : l.sheet.Covers d :=
    (l.sheet.grid_covers_iff d).mp fun c hc =>
      (congrFun hsame.inBounds c).symm.trans (hcovers c hc)
  have htakes : l.sheet.TakesFrom Registry.builtin a d := ⟨x, hx, hd, hcovers'⟩
  exact ih d htakes b hb (hclosed a d ha htakes b hb)

omit hsame in
/-- Solved sheets with the same contents hold the same values. -/
theorem stored_eq (hsame : l.sheet.SameContents m.sheet) (a : Address) :
    m.sheet.stored a = l.sheet.stored a :=
  stored_eq_of_closed (p := fun _ => True) h h' hsame.toSameFormulas (fun _ _ _ _ _ _ => trivial)
    (fun b _ => hsame.constantAt b) trivial

end Uniqueness

end Consistent

end LoadedSheet

end Recalc
