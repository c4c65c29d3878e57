import Recalc.Proofs.Sheet.Circularity

/-!
# Passes that are refused

Whatever functions there are, a pass stops for one reason only: a range is on a cycle. It then names
the range on a cycle whose vertex was added first. Every other pass goes through, and leaves the
cycle error in the formulas that are on cycles.
-/

namespace Recalc

open Relation

/-- Where each element has one of two properties, all have the first one, or some element has the
second one and those in front of it have the first one. -/
theorem forall_or_exists_first {α : Type} {p q : α → Prop} {xs : List α}
    (h : ∀ x ∈ xs, p x ∨ q x) :
    (∀ x ∈ xs, p x) ∨ ∃ front x back, xs = front ++ x :: back ∧ (∀ y ∈ front, p y) ∧ q x := by
  induction xs with
  | nil => exact Or.inl nofun
  | cons x xs ih =>
      rcases h x List.mem_cons_self with hp | hq
      · rcases ih fun y hy => h y (List.mem_cons_of_mem x hy) with
          hall | ⟨front, y, back, rfl, hfront, hy⟩
        · exact Or.inl (List.forall_mem_cons.mpr ⟨hp, hall⟩)
        · exact Or.inr ⟨x :: front, y, back, rfl, List.forall_mem_cons.mpr ⟨hp, hfront⟩, hy⟩
      · exact Or.inr ⟨[], x, xs, rfl, nofun, hq⟩

namespace Sheet

variable {functions : Registry} {s t : Sheet} {o : Order VertexId} {id u v : VertexId}
  {w : Vertex} {front : List VertexId}

/-! ## Passes that go through -/

/-- A vertex can be recomputed, and no other vertex changes. -/
theorem exists_recompute (functions : Registry) (hid : id.index < s.store.size) :
    ∃ t, s.recompute functions id = .ok t ∧ s.Reshown t
      ∧ ∀ j, j ≠ id → t.store.get? j = s.store.get? j := by
  obtain ⟨w, hw⟩ := (s.store.lt_size_iff id).mp hid
  cases w with
  | formula x home shown =>
      let c := (x.evaluate functions home s.view s.store.caches).2
      let s' : Sheet := { s with store := { s.store with caches := c } }
      have hsame : s.Reshown s' := ⟨⟨rfl, rfl, rfl, fun _ => rfl⟩, fun _ => rfl⟩
      have hw' : s'.store.get? id = some (.formula x home shown) := hw
      refine ⟨s'.setValue id (x.evaluate functions home s.view s.store.caches).1, ?_,
        hsame.trans (reshown_setValue hw' _), fun j hj => ?_⟩
      · rw [recompute, hw]
        rfl
      · exact (get?_setValue hw' _ j).trans (if_neg hj)
  | range r =>
      exact ⟨{ s with store := s.store.clearCache id }, by rw [recompute, hw],
        ⟨⟨rfl, rfl, rfl, fun _ => rfl⟩, fun _ => rfl⟩, fun _ _ => rfl⟩
  | value _ => exact ⟨s, by rw [recompute, hw], Reshown.refl s, fun _ _ => rfl⟩
  | blank => exact ⟨s, by rw [recompute, hw], Reshown.refl s, fun _ _ => rfl⟩

theorem exists_recomputeAll (functions : Registry) {ids : List VertexId}
    (hids : ∀ id ∈ ids, id.index < s.store.size) :
    ∃ t, LoadedSheet.recomputeAll functions s ids = (.ok (), t) ∧ s.Reshown t
      ∧ ∀ j, j ∉ ids → t.store.get? j = s.store.get? j := by
  induction ids generalizing s with
  | nil => exact ⟨s, rfl, Reshown.refl s, fun _ _ => rfl⟩
  | cons id ids ih =>
      obtain ⟨s', hs', hshown, hkept⟩ := exists_recompute functions (hids id List.mem_cons_self)
      have hrest : ∀ j ∈ ids, j.index < s'.store.size := fun j hj =>
        hshown.toSameOutline.size.mpr (hids j (List.mem_cons_of_mem id hj))
      obtain ⟨t, ht, hshown', hkept'⟩ := ih hrest
      refine ⟨t, ?_, hshown.trans hshown', fun j hj => ?_⟩
      · rw [LoadedSheet.recomputeAll, hs']
        exact ht
      · rw [List.mem_cons, not_or] at hj
        exact (hkept' j hj.2).trans (hkept j hj.1)

/-- A pass succeeds, and the formulas on cycles show the cycle error. -/
theorem Passable.exists_pass_marked (h : s.Passable functions o) :
    ∃ t, LoadedSheet.pass functions ⟨s, o⟩ = (.ok (), ⟨t, o⟩) ∧ s.Reshown t
      ∧ ∀ id ∈ o.cycled, ∃ x home, t.store.get? id = some (.formula x home (.error .cycle)) := by
  obtain ⟨s', hs', hshown, hmarked⟩ := exists_markCycles h.formulas
  have hsorted : ∀ id ∈ o.sorted, id.index < s'.store.size := by
    intro id hid
    have hnode : id ∈ s.graph.toList := ((h.arranges.mem_sorted_iff id).mp hid).1
    rw [h.wired.labelled.graph.mem_toList_iff, h.wired.labelled.contains_iff] at hnode
    exact hshown.toSameOutline.size.mpr hnode
  obtain ⟨t, ht, hshown', hkept⟩ := exists_recomputeAll functions hsorted
  refine ⟨t, ?_, hshown.trans hshown', fun id hid => ?_⟩
  · simp only [LoadedSheet.pass, hs', ht]
  · obtain ⟨x, home, shown, hget⟩ := h.formulas id hid
    obtain ⟨shown', hget'⟩ := hshown.toSameOutline.exists_formula hget
    have hnot : id ∉ o.sorted := fun hsorted => h.arranges.not_cycled_of_sorted hsorted hid
    obtain rfl := (hmarked id x home shown' hget').resolve_right fun hold => hold.1 hid
    exact ⟨x, home, (hkept id hnot).trans hget'⟩

/-! ## Passes that stop -/

/-- Only formulas and ranges read anything. -/
theorem Wired.formula_or_range_of_edge (h : s.Wired (s.Reads functions))
    (hedge : s.graph.Edge u v) :
    (∃ x home shown, s.store.get? v = some (.formula x home shown))
      ∨ ∃ r, s.store.get? v = some (.range r) := by
  obtain ⟨e, d, ⟨a, x, hx, f, -, -, hbrings⟩, hv, -⟩ := (h.edge_iff u v).mp hedge
  cases hbrings with
  | formula =>
      obtain ⟨id, shown, hget⟩ := h.labelled.formulaAt_eq_some_iff.mp hx
      obtain rfl := Option.some.inj (hv.symm.trans (h.labelled.find?_home hget))
      exact Or.inl ⟨x, a, shown, hget⟩
  | cells => exact Or.inr ⟨_, h.labelled.get?_range hv⟩

/-- The marks of a pass stop at the first vertex that is no formula. -/
theorem markCycles_eq_error (back : List VertexId)
    (hfront : ∀ j ∈ front, ∃ x home shown, s.store.get? j = some (.formula x home shown))
    (hid : s.store.get? id = some w) (hw : w.isFormula = false) :
    ∃ t, LoadedSheet.markCycles s (front ++ id :: back)
      = (.error (.nonFormulaOnCycle w.kind id), t) := by
  induction front generalizing s with
  | nil =>
      rw [List.nil_append, LoadedSheet.markCycles, hid]
      cases w with
      | formula => cases hw
      | _ => exact ⟨s, rfl⟩
  | cons first front ih =>
      obtain ⟨x, home, shown, hfirst⟩ := hfront first List.mem_cons_self
      have hget := get?_setValue hfirst (.error .cycle)
      have hne : id ≠ first := by
        rintro rfl
        rw [Option.some.inj (hid.symm.trans hfirst)] at hw
        cases hw
      have hrest := (reshown_setValue hfirst (.error .cycle)).toSameOutline.formulas fun j hj =>
        hfront j (List.mem_cons_of_mem first hj)
      obtain ⟨t, ht⟩ := ih hrest ((hget id).trans ((if_neg hne).trans hid))
      refine ⟨t, ?_⟩
      rw [List.cons_append, LoadedSheet.markCycles, hfirst]
      exact ht

/-- The range on a cycle that was added before all others. -/
structure FirstRangeOnCycle (s : Sheet) (id : VertexId) : Prop where
  range : ∃ r, s.store.get? id = some (.range r)
  onCycle : s.graph.OnCycle id
  first : ∀ j r, s.store.get? j = some (.range r) → s.graph.OnCycle j → id.index ≤ j.index

theorem Numbered.pairwise_cycled (h : s.Numbered) (ho : s.graph.Arranges o) :
    o.cycled.Pairwise fun i j => i.index < j.index := by
  have hall : s.graph.toList.Pairwise fun i j => i.index < j.index := by
    rw [h.toList, Store.map_fst_toList, List.pairwise_map]
    exact List.pairwise_lt_range
  exact hall.sublist ho.inOrder

/-- A sheet is ready for passes, or the pass stops at the first range on a cycle. -/
theorem Wired.pass_cases (h : s.Wired (s.Reads functions)) (hnumbered : s.Numbered) :
    s.Passable functions s.order ∨ ∃ id t, s.FirstRangeOnCycle id
      ∧ LoadedSheet.pass functions ⟨s, s.order⟩
        = (.error (.nonFormulaOnCycle .range id), ⟨t, s.order⟩) := by
  have harranges : s.graph.Arranges s.order := hnumbered.graph.arranges_sort
  -- Nothing leads to a value or to a blank cell, so neither is on a cycle.
  have hvertex : ∀ id ∈ s.order.cycled,
      (∃ x home shown, s.store.get? id = some (.formula x home shown))
        ∨ ∃ r, s.store.get? id = some (.range r) := by
    intro id hid
    obtain ⟨u, hedge, -⟩ := exists_previous_on_cycle ((harranges.mem_cycled_iff id).mp hid)
    exact h.formula_or_range_of_edge hedge
  rcases forall_or_exists_first hvertex with hall | ⟨front, id, back, hcut, hfront, r, hget⟩
  · exact Or.inl ⟨h, harranges, hall⟩
  obtain ⟨t, ht⟩ := markCycles_eq_error back hfront hget rfl
  have hordered := hnumbered.pairwise_cycled harranges
  rw [hcut] at hordered
  refine Or.inr ⟨id, t, ⟨⟨r, hget⟩, ?_, fun j r' hj hcycle => ?_⟩, ?_⟩
  · rw [← harranges.mem_cycled_iff, hcut]
    exact List.mem_append_right _ List.mem_cons_self
  · rw [← harranges.mem_cycled_iff, hcut, List.mem_append] at hcycle
    rcases hcycle with hmem | hmem
    · obtain ⟨x, home, shown, hformula⟩ := hfront j hmem
      exact absurd (hj.symm.trans hformula) nofun
    · rcases List.mem_cons.mp hmem with rfl | hback
      · exact Nat.le_refl _
      · exact Nat.le_of_lt (List.rel_of_pairwise_cons (List.pairwise_append.mp hordered).2.1 hback)
  · rw [LoadedSheet.pass]
    simp only [hcut, ht]
    rfl

/-! ## Ranges on cycles -/

theorem Labelled.find?_of_range (h : s.Labelled) {r : Range}
    (hid : s.store.get? id = some (.range r)) : s.find? (.range r) = some id := by
  obtain ⟨d, hd⟩ := h.label id ((s.store.lt_size_iff id).mpr ⟨_, hid⟩)
  obtain ⟨w, hw, hfits⟩ := h.fits d id hd
  obtain rfl := Option.some.inj (hid.symm.trans hw)
  cases d with
  | cell a => exact hfits.elim
  | range r' => rwa [show r = r' from hfits]

/-- A range on a cycle is read by way of itself. -/
theorem FirstRangeOnCycle.exists_cycle (h : s.FirstRangeOnCycle id)
    (hwired : s.Wired (s.Reads functions)) :
    ∃ r, TransGen (s.Reads functions) (.range r) (.range r) := by
  obtain ⟨r, hget⟩ := h.range
  have hid := hwired.labelled.find?_of_range hget
  exact ⟨r, (hwired.transGen_edge_iff hid hid).mp h.onCycle⟩

/-- On a sheet that is ready for passes no range is read by way of itself. -/
theorem Passable.not_range_cycle (h : s.Passable functions o) (r : Range) :
    ¬ TransGen (s.Reads functions) (.range r) (.range r) := by
  intro hcycle
  obtain ⟨id, hid⟩ := h.wired.exists_find? hcycle
  exact h.arranges.not_cycled_of_sorted (h.sorted_of_range hid) ((h.mem_cycled_iff hid).mpr hcycle)

/-- The formulas that are set aside are those that read themselves. -/
theorem Passable.exists_cycled_formula_iff (h : s.Passable functions o) (a : Address) :
    (∃ id ∈ o.cycled, ∃ x shown, s.store.get? id = some (.formula x a shown))
      ↔ TransGen (s.Reads functions) (.cell a) (.cell a) := by
  constructor
  · rintro ⟨id, hid, x, shown, hget⟩
    exact (h.mem_cycled_iff (h.wired.labelled.find?_home hget)).mp hid
  · intro hcycle
    obtain ⟨id, hid⟩ := h.wired.exists_find? hcycle
    have hcyc := (h.mem_cycled_iff hid).mpr hcycle
    obtain ⟨x, home, shown, hget⟩ := h.formulas id hcyc
    obtain rfl : home = a := Dependency.cell.inj
      (h.wired.labelled.inj _ _ _ (h.wired.labelled.find?_home hget) hid)
    exact ⟨id, hcyc, x, shown, hget⟩

end Sheet

end Recalc
