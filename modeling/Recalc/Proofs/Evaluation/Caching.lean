import Mathlib.Data.List.Forall2
import Recalc.Proofs.Evaluation.Dependence

/-!
# Evaluation with caches

An evaluation reads through caches and fills them. As long as the caches of the ranges that it needs
are true, it gives the meaning of the expression and leaves those caches true.
-/

namespace Recalc

/-! ## Computations that give a value -/

/-- From caches that are `ok`, the computation gives `x` and leaves caches that are `ok`. -/
def Eval.Gives {α : Type} (view : View) (ok : Caches → Prop) (m : Eval α) (x : α) : Prop :=
  ∀ c, ok c → (m view c).1 = x ∧ ok (m view c).2

/-- The same of a computation that may end with an error value. -/
def Attempt.Gives {α : Type} (view : View) (ok : Caches → Prop) (m : Attempt α)
    (x : Except ErrorKind α) : Prop := Eval.Gives view ok m.run x

section

variable {view : View} {ok : Caches → Prop} {α β : Type}

namespace Eval

theorem gives_pure (x : α) : Gives view ok (pure x) x := fun _ hc => ⟨rfl, hc⟩

theorem Gives.bind {m : Eval α} {f : α → Eval β} {x : α} {y : β} (h : Gives view ok m x)
    (hf : Gives view ok (f x) y) : Gives view ok (m >>= f) y := by
  intro c hc
  obtain ⟨hx, hc'⟩ := h c hc
  have h' := hf (m view c).2 hc'
  rw [← hx] at h'
  exact h'

theorem gives_settle {m : Attempt Value} {x : Except ErrorKind Value}
    (h : Attempt.Gives view ok m x) : Gives view ok (settle m) (Value.ofExcept x) :=
  Gives.bind h (gives_pure _)

end Eval

namespace Attempt

theorem gives_pure (x : α) : Gives view ok (pure x) (.ok x) := fun _ hc => ⟨rfl, hc⟩

theorem gives_throw (e : ErrorKind) : Gives view ok (throw e : Attempt α) (.error e) :=
  fun _ hc => ⟨rfl, hc⟩

theorem gives_except (x : Except ErrorKind α) : Gives view ok (liftM x) x := by
  cases x <;> exact fun _ hc => ⟨rfl, hc⟩

theorem gives_eval {m : Eval α} {x : α} (h : Eval.Gives view ok m x) :
    Gives view ok (liftM m) (.ok x) := fun c hc => ⟨congrArg Except.ok (h c hc).1, (h c hc).2⟩

theorem Gives.bind {m : Attempt α} {f : α → Attempt β} {x : Except ErrorKind α}
    {k : α → Except ErrorKind β} (h : Gives view ok m x)
    (hf : ∀ v, x = .ok v → Gives view ok (f v) (k v)) : Gives view ok (m >>= f) (x >>= k) := by
  have hbind : (m >>= f).run = m.run >>= ExceptT.bindCont f := rfl
  rw [Gives, hbind]
  apply Eval.Gives.bind h
  cases x with
  | error e => exact Eval.gives_pure _
  | ok v => exact hf v rfl

/-- A failure ends a computation. -/
theorem Gives.bind_error {m : Attempt α} {f : α → Attempt β} {e : ErrorKind}
    (h : Gives view ok m (.error e)) : Gives view ok (m >>= f) (.error e) := by
  apply Gives.bind (k := fun _ => .error e) h
  intro v hv
  cases hv

/-- A computation whose value is then looked at. -/
theorem gives_bind_eval {m : Eval α} {f : α → Attempt β} {x : α} {y : Except ErrorKind β}
    (h : Eval.Gives view ok m x) (hf : Gives view ok (f x) y) :
    Gives view ok (liftM m >>= f) y :=
  Gives.bind (k := fun _ => y) (gives_eval h) fun _ hv => Except.ok.inj hv ▸ hf

end Attempt

end

/-! ## True caches -/

/-- The values that evaluations on a sheet read. -/
def View.grid (view : View) : Grid := ⟨view.cells.inBounds, view.cellValue⟩

/-- What a cache holds has been computed from the cells of the range. -/
structure RangeCache.Holds (cache : RangeCache) (view : View) (r : Range) : Prop where
  values : ∀ values, cache.values = some values → values = view.rangeCells r
  column : ∀ index, cache.column = some index →
    index = ColumnIndex.ofList (firstColumn r.width (view.rangeCells r))

theorem RangeCache.holds_of_not_filled {cache : RangeCache} (h : cache.isFilled = false)
    (view : View) (r : Range) : cache.Holds view r := by
  rw [isFilled, Bool.or_eq_false_iff, Option.isSome_eq_false_iff, Option.isSome_eq_false_iff,
    Option.isNone_iff_eq_none, Option.isNone_iff_eq_none] at h
  exact ⟨by simp [h.1], by simp [h.2]⟩

theorem RangeCache.Holds.congr {cache : RangeCache} {view view' : View} {r : Range}
    (h : cache.Holds view r) (heq : view'.rangeCells r = view.rangeCells r) :
    cache.Holds view' r :=
  ⟨fun values hvalues => heq ▸ h.values values hvalues,
    fun index hindex => heq ▸ h.column index hindex⟩

theorem Vertex.eq_of_range? {v : Option Vertex} {r : Range} (h : v.bind Vertex.range? = some r) :
    v = some (.range r) := by
  obtain ⟨v, rfl, hv⟩ := Option.bind_eq_some_iff.mp h
  cases v with
  | range => rw [Option.some.inj hv]
  | _ => cases hv

/-- Each needed range on the sheet has its vertex, and no needed range off the sheet has one. -/
structure View.Serves (view : View) (needed : Range → Prop) : Prop where
  vertex : ∀ r, needed r → view.cells.rangeInBounds r = true →
    ∃ id, view.ranges.get? r = some id ∧ view.vertices[id.index]? = some (.range r)
  none : ∀ r, needed r → view.cells.rangeInBounds r = false → view.rangeVertex? r = none

/-- The caches of the needed ranges are true. -/
def View.TrueCaches (view : View) (needed : Range → Prop) (c : Caches) : Prop :=
  ∀ r id, needed r → view.ranges.get? r = some id →
    view.vertices[id.index]? = some (.range r) → (c.get id).Holds view r

section

variable {view : View} {needed : Range → Prop}

theorem View.cellValue_eq_error {a : Address} (h : ¬ view.cells.inBounds a = true) :
    view.cellValue a = .error .badReference := by
  rw [cellValue, CellMap.get, if_neg h]

theorem View.grid_cell (view : View) (a : Address) : view.grid.cell a = view.cellValue a := by
  rw [Grid.cell, grid]
  by_cases ha : view.cells.inBounds a = true
  · rw [if_pos ha]
  · rw [if_neg ha, cellValue_eq_error ha]

theorem Eval.gives_cell {ok : Caches → Prop} (a : Address) :
    Eval.Gives view ok (Eval.cell a) (view.grid.cell a) := by
  rw [view.grid_cell]
  intro _ hc
  exact ⟨rfl, hc⟩

theorem View.grid_range (view : View) (r : Range) :
    view.grid.range r =
      if view.cells.rangeInBounds r then .ok (view.rangeCells r) else .error .badReference := by
  have hall : r.addresses.all view.grid.inBounds = view.cells.rangeInBounds r := by
    rw [Bool.eq_iff_iff, List.all_eq_true, view.cells.rangeInBounds_iff]
    rfl
  rw [Grid.range, hall]
  rfl

theorem View.TrueCaches.set {c : Caches} (h : view.TrueCaches needed c) {r : Range} {id : VertexId}
    {cache : RangeCache} (hid : view.vertices[id.index]? = some (.range r))
    (hcache : cache.Holds view r) : view.TrueCaches needed (c.set id cache) := by
  intro r' id' hneeded hget hvertex
  rw [Caches.get_set]
  split
  · next heq =>
      subst heq
      obtain rfl := Vertex.range.inj (Option.some.inj (hid.symm.trans hvertex))
      exact hcache
  · exact h r' id' hneeded hget hvertex

theorem RangeCache.Holds.valuesOr {cache : RangeCache} {r : Range} (h : cache.Holds view r) :
    (cache.valuesOr fun _ => view.rangeCells r).1 = view.rangeCells r
      ∧ (cache.valuesOr fun _ => view.rangeCells r).2.Holds view r := by
  rw [RangeCache.valuesOr]
  split
  · next values hvalues => exact ⟨h.values values hvalues, h⟩
  · exact ⟨rfl, fun values hvalues => (Option.some.inj hvalues).symm, h.column⟩

theorem RangeCache.Holds.columnOr {cache : RangeCache} {r : Range} (h : cache.Holds view r) :
    let fresh := fun _ => ColumnIndex.ofList (firstColumn r.width (view.rangeCells r))
    (cache.columnOr fresh).1 = fresh () ∧ (cache.columnOr fresh).2.Holds view r := by
  intro fresh
  rw [RangeCache.columnOr]
  split
  · next index hindex => exact ⟨h.column index hindex, h⟩
  · exact ⟨rfl, h.values, fun index hindex => (Option.some.inj hindex).symm⟩

theorem View.Serves.rangeVertex? (serves : view.Serves needed) {r : Range} (hr : needed r)
    (hin : view.cells.rangeInBounds r = true) : ∃ id, view.rangeVertex? r = some id
      ∧ view.ranges.get? r = some id ∧ view.vertices[id.index]? = some (.range r) := by
  obtain ⟨id, hget, hvertex⟩ := serves.vertex r hr hin
  exact ⟨id, by simp [View.rangeVertex?, hget, hvertex, Vertex.range?], hget, hvertex⟩

theorem Attempt.gives_rangeVertex {ok : Caches → Prop} {r : Range} {id : VertexId}
    (h : view.rangeVertex? r = some id) :
    Attempt.Gives view ok (Attempt.rangeVertex r) (.ok id) := by
  refine Attempt.gives_bind_eval (m := read) (x := view) (fun c hc => ⟨rfl, hc⟩) ?_
  rw [h]
  exact Attempt.gives_pure id

theorem Attempt.gives_rangeVertex_none {ok : Caches → Prop} {r : Range}
    (h : view.rangeVertex? r = none) :
    Attempt.Gives view ok (Attempt.rangeVertex r) (.error .badReference) := by
  refine Attempt.gives_bind_eval (m := read) (x := view) (fun c hc => ⟨rfl, hc⟩) ?_
  rw [h]
  exact Attempt.gives_throw _

/-- The values of a needed range are read, from its cache or from its cells. -/
theorem Attempt.gives_rangeValues (serves : view.Serves needed) {r : Range} (hr : needed r) :
    Attempt.Gives view (view.TrueCaches needed) (Attempt.rangeValues r) (view.grid.range r) := by
  rw [view.grid_range]
  by_cases hin : view.cells.rangeInBounds r = true
  · obtain ⟨id, hid, hget, hvertex⟩ := serves.rangeVertex? hr hin
    rw [if_pos hin]
    refine Attempt.Gives.bind (x := .ok id) (k := fun _ => .ok (view.rangeCells r))
      (Attempt.gives_rangeVertex hid) fun _ hv c hc => ?_
    obtain rfl := Except.ok.inj hv
    obtain ⟨hvalues, hcache⟩ := (hc r id hr hget hvertex).valuesOr
    exact ⟨congrArg Except.ok hvalues, hc.set hvertex hcache⟩
  · rw [if_neg hin]
    have hnone := serves.none r hr (Bool.eq_false_iff.mpr hin)
    exact (Attempt.gives_rangeVertex_none hnone).bind_error

/-- A row of a needed range is found by an index of its first column. -/
theorem Attempt.gives_findRow (serves : view.Serves needed) {r : Range} (hr : needed r)
    (key : Value) :
    Attempt.Gives view (view.TrueCaches needed) (Attempt.findRow key r)
      (view.grid.findRow key r) := by
  have hrange := Attempt.gives_rangeValues serves hr
  rw [view.grid_range] at hrange
  rw [Grid.findRow, view.grid_range]
  by_cases hin : view.cells.rangeInBounds r = true
  · obtain ⟨id, hid, hget, hvertex⟩ := serves.rangeVertex? hr hin
    rw [if_pos hin] at hrange ⊢
    refine Attempt.Gives.bind (x := .ok id) (k := fun _ => _)
      (Attempt.gives_rangeVertex hid) fun _ hv => ?_
    obtain rfl := Except.ok.inj hv
    refine Attempt.Gives.bind (x := .ok (view.rangeCells r)) (k := fun _ => _) hrange
      fun values hvalues c hc => ?_
    obtain rfl := Except.ok.inj hvalues
    obtain ⟨hindex, hcache⟩ := (hc r id hr hget hvertex).columnOr
    refine ⟨congrArg Except.ok ?_, hc.set hvertex hcache⟩
    have hcolumn := RangeCache.firstColumn_map_addresses r view.cellValue
    exact congrArg (ColumnIndex.find? · key) (hindex.trans (congrArg ColumnIndex.ofList hcolumn))
  · rw [if_neg hin]
    have hnone := serves.none r hr (Bool.eq_false_iff.mpr hin)
    exact (Attempt.gives_rangeVertex_none hnone).bind_error

end

end Recalc
