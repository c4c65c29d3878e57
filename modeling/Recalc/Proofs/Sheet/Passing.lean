import Recalc.Proofs.Evaluation.Calls
import Recalc.Proofs.Graph.Order
import Recalc.Proofs.Sheet.Outline
import Recalc.Sheet.Pass

/-!
# What a pass achieves

A pass goes through the vertices off the cycles in an order in which each stands behind all that it
reads. So when a formula is computed, all it reads is final and the caches of its ranges are true;
and what is computed later changes neither. In the end every formula shows its meaning.
-/

namespace Recalc

/-- An element that stands before another one of a beginning of a list is in front of its last. -/
theorem mem_of_pair_sublist {α : Type} {done rest : List α} {x u v : α}
    (hnodup : (done ++ x :: rest).Nodup) (hpair : [u, v].Sublist (done ++ x :: rest))
    (hv : v ∈ done ++ [x]) : u ∈ done := by
  rw [List.append_cons] at hnodup hpair
  have hrest : v ∉ rest := fun hv' => (List.nodup_append.mp hnodup).2.2 v hv v hv' rfl
  obtain ⟨front, back, heq, hfront, hback⟩ := List.sublist_append_iff.mp hpair
  have hsub : [u, v].Sublist (done ++ [x]) := by
    rcases back with _ | ⟨w, back⟩
    · rwa [heq, List.append_nil]
    · have hlast : v ∈ w :: back := by
        have := congrArg List.getLast? heq
        rw [List.getLast?_append_of_ne_nil _ (List.cons_ne_nil w back)] at this
        exact List.mem_of_getLast? this.symm
      exact absurd (hback.subset hlast) hrest
  obtain ⟨front, back, heq, hfront, hback⟩ := List.sublist_append_iff.mp hsub
  rcases front with _ | ⟨w, front⟩
  · have := hback.length_le
    rw [← List.nil_append back, ← heq] at this
    exact absurd this (by simp)
  · obtain rfl : u = w := (List.cons.inj heq).1
    exact hfront.subset List.mem_cons_self

namespace Sheet

/-- What a pass relies on: the arrows are those of the formulas, the order is one of evaluation, and
only formulas are on cycles. -/
structure Passable (functions : Registry) (s : Sheet) (o : Order VertexId) : Prop where
  wired : s.Wired (s.Reads functions)
  arranges : s.graph.Arranges o
  formulas : ∀ id ∈ o.cycled, ∃ x home shown, s.store.get? id = some (.formula x home shown)

/-- After a beginning of the order, its formulas show their meaning and the caches of its ranges are
true. -/
structure Solving (s : Sheet) (o : Order VertexId) (done : List VertexId) : Prop where
  cycled : ∀ id ∈ o.cycled, ∀ x home v, s.store.get? id = some (.formula x home v) →
    v = .error .cycle
  shown : ∀ id ∈ done, ∀ x home v, s.store.get? id = some (.formula x home v) →
    v = x.meaning s.view.grid home
  caches : ∀ r id, s.find? (.range r) = some id → id ∈ done →
    (s.store.caches.get id).Holds s.view r

variable {functions : Registry} {s t : Sheet} {o : Order VertexId} {done rest : List VertexId}
  {id j u v : VertexId} {x : Expr} {home a : Address} {shown : Value} {d : Dependency} {r : Range}

theorem SameOutline.formulas (h : s.SameOutline t) {ids : List VertexId}
    (hs : ∀ id ∈ ids, ∃ x home shown, s.store.get? id = some (.formula x home shown)) :
    ∀ id ∈ ids, ∃ x home shown, t.store.get? id = some (.formula x home shown) := by
  intro id hid
  obtain ⟨x, home, shown, hget⟩ := hs id hid
  obtain ⟨shown', hget'⟩ := h.exists_formula hget
  exact ⟨x, home, shown', hget'⟩

theorem SameOutline.passable (h : s.SameOutline t) (hs : s.Passable functions o) :
    t.Passable functions o where
  wired := h.wired_reads hs.wired
  arranges := h.graph ▸ hs.arranges
  formulas := h.formulas hs.formulas

theorem grid_covers_iff (s : Sheet) (d : Dependency) : s.view.grid.Covers d ↔ s.Covers d := by
  cases d with
  | cell a => exact ⟨fun h => h a (List.mem_singleton.mpr rfl),
      fun h b hb => List.mem_singleton.mp hb ▸ h⟩
  | range r => exact (s.cells.rangeInBounds_iff r).symm

namespace Passable

/-- A vertex is on a cycle or has its place in the order. -/
theorem sorted_of_not_cycled (h : s.Passable functions o) (hid : s.find? d = some id)
    (hcyc : id ∉ o.cycled) : id ∈ o.sorted := by
  have hmem : id ∈ s.graph.toList :=
    (h.wired.labelled.graph.mem_toList_iff id).mpr (h.wired.labelled.contains hid)
  rw [← h.arranges.perm.mem_iff, List.mem_append] at hmem
  exact hmem.resolve_right hcyc

theorem sorted_of_range (h : s.Passable functions o) (hid : s.find? (.range r) = some id) :
    id ∈ o.sorted := by
  apply h.sorted_of_not_cycled hid
  intro hcyc
  obtain ⟨x, home, shown, hget⟩ := h.formulas id hcyc
  obtain ⟨w, hw, hfits⟩ := h.wired.labelled.fits _ id hid
  obtain rfl := Option.some.inj (hget.symm.trans hw)
  exact hfits

/-- What a vertex that has been gone through reads has been gone through. -/
theorem source_done (h : s.Passable functions o) (hcut : done ++ id :: rest = o.sorted)
    (hv : v ∈ done ++ [id]) (hedge : s.graph.Edge u v) (hu : u ∈ o.sorted) : u ∈ done := by
  have hv' : v ∈ o.sorted := by
    rw [← hcut, List.append_cons]
    exact List.mem_append_left _ hv
  have hnodup : o.sorted.Nodup := (List.nodup_append.mp h.arranges.nodup).1
  have hpair := h.arranges.before u v hedge hu hv'
  rw [← hcut] at hnodup hpair
  exact mem_of_pair_sublist hnodup hpair hv

theorem not_done (h : s.Passable functions o) (hcut : done ++ id :: rest = o.sorted) :
    id ∉ done := by
  have hnodup : o.sorted.Nodup := (List.nodup_append.mp h.arranges.nodup).1
  rw [← hcut] at hnodup
  intro hid
  exact (List.nodup_append.mp hnodup).2.2 id hid id List.mem_cons_self rfl

theorem not_cycled (h : s.Passable functions o) (hcut : done ++ id :: rest = o.sorted) :
    id ∉ o.cycled :=
  h.arranges.not_cycled_of_sorted (hcut ▸ List.mem_append_right _ List.mem_cons_self)

/-- The vertex of a dependency on the sheet leads to its formula. -/
theorem edge_of_names (h : s.Passable functions o)
    (hj : s.store.get? j = some (.formula x home shown))
    (hd : d ∈ x.dependencies functions.shapeOnly home) (hcovers : s.Covers d) :
    ∃ u, s.find? d = some u ∧ s.graph.Edge u j
      ∧ ∀ r, d = .range r → ∀ a ∈ r.addresses, ∃ w, s.find? (.cell a) = some w
        ∧ s.graph.Edge w u := by
  have hx := h.wired.labelled.formulaAt_eq_some_iff.mpr ⟨j, shown, hj⟩
  have hhome := h.wired.labelled.find?_home hj
  have hread : s.Reads functions (.cell home) d := ⟨home, x, hx, d, hd, hcovers, .formula⟩
  obtain ⟨u, hu, hedge⟩ := h.wired.exists_edge hread hhome
  refine ⟨u, hu, hedge, ?_⟩
  rintro r rfl a ha
  exact h.wired.exists_edge (h.wired.fed r u hu a ha) hu

/-- The cells that a formula names have been gone through before it, or are on cycles. -/
theorem cell_done (h : s.Passable functions o) (hcut : done ++ id :: rest = o.sorted)
    (hj : s.store.get? j = some (.formula x home shown)) (hdone : j ∈ done ++ [id])
    (hd : d ∈ x.dependencies functions.shapeOnly home) (hcovers : s.Covers d)
    (ha : a ∈ d.addresses) (hw : s.find? (.cell a) = some v) (hsorted : v ∈ o.sorted) :
    v ∈ done := by
  obtain ⟨u, hu, hedge, hcells⟩ := h.edge_of_names hj hd hcovers
  cases d with
  | cell b =>
      obtain rfl := List.mem_singleton.mp ha
      obtain rfl := Option.some.inj (hu.symm.trans hw)
      exact h.source_done hcut hdone hedge hsorted
  | range r =>
      obtain ⟨w, hw', hedge'⟩ := hcells r rfl a ha
      obtain rfl := Option.some.inj (hw.symm.trans hw')
      have hu' := h.source_done hcut hdone hedge (h.sorted_of_range hu)
      exact h.source_done hcut (List.mem_append_left _ hu') hedge' hsorted

end Passable

/-! ## One step -/

/-- The ranges that may be read: those that have been gone through, and those off the sheet, which
are refused. -/
def Readable (s : Sheet) (done : List VertexId) (r : Range) : Prop :=
  (∃ id ∈ done, s.find? (.range r) = some id) ∨ ¬ s.Covers (.range r)

theorem Labelled.serves (h : s.Labelled) (done : List VertexId) :
    s.view.Serves (s.Readable done) := by
  constructor
  · intro r hr hin
    obtain ⟨id, -, hid⟩ := hr.resolve_right fun hout => hout hin
    obtain ⟨w, hw, hfits⟩ := h.fits _ id hid
    cases w with
    | range r' => exact ⟨id, hid, by rw [← (hfits : r' = r)]; exact hw⟩
    | _ => exact hfits.elim
  · intro r hr hout
    have hnone : s.find? (.range r) = none := by
      rw [Option.eq_none_iff_forall_ne_some]
      exact fun id hid => absurd (h.covers _ id hid) (Bool.eq_false_iff.mp hout)
    have hget : s.view.ranges.get? r = none := hnone
    rw [View.rangeVertex?, hget]
    rfl

theorem Solving.trueCaches (hs : s.Solving o done) (h : s.Labelled) :
    s.view.TrueCaches (s.Readable done) s.store.caches := by
  intro r id hr hget _
  obtain ⟨id', hdone, hid'⟩ := hr.resolve_right fun hout => hout (h.covers _ id hget)
  obtain rfl := Option.some.inj (hget.symm.trans hid')
  exact hs.caches r id hget hdone

/-- A formula whose turn has come gives its meaning and leaves the caches true. -/
theorem Solving.evaluate (hs : s.Solving o done) (h : s.Passable Registry.builtin o)
    (hcut : done ++ id :: rest = o.sorted)
    (hid : s.store.get? id = some (.formula x home shown)) :
    (x.evaluate Registry.builtin home s.view s.store.caches).1 = x.meaning s.view.grid home
      ∧ s.view.TrueCaches (s.Readable done)
        (x.evaluate Registry.builtin home s.view s.store.caches).2 := by
  refine Expr.gives_evaluate (h.wired.labelled.serves done) home x (fun r hr => ?_) _
    (hs.trueCaches h.wired.labelled)
  by_cases hcovers : s.Covers (.range r)
  · obtain ⟨u, hu, hedge, -⟩ := h.edge_of_names hid hr hcovers
    exact Or.inl ⟨u, h.source_done hcut (List.mem_append_right _ List.mem_cons_self) hedge
      (h.sorted_of_range hu), hu⟩
  · exact Or.inr hcovers

/-- What has been gone through does not read the formula whose turn it is. -/
theorem Passable.agreeOn (h : s.Passable functions o) (hcut : done ++ id :: rest = o.sorted)
    {y : Expr} {other : Address} {shown' : Value}
    (hid : s.store.get? id = some (.formula x home shown))
    (hj : s.store.get? j = some (.formula y other shown')) (hdone : j ∈ done ++ [id])
    (w : Value) :
    s.view.grid.AgreeOn (s.setValue id w).view.grid
      (y.dependencies functions.shapeOnly other) := by
  refine ⟨rfl, fun d hd hcovers a ha => ?_⟩
  have hne : a ≠ home := by
    rintro rfl
    have hsorted : id ∈ o.sorted := hcut ▸ List.mem_append_right _ List.mem_cons_self
    exact h.not_done hcut (h.cell_done hcut hj hdone hd ((s.grid_covers_iff d).mp hcovers) ha
      (h.wired.labelled.find?_home hid) hsorted)
  exact ((cellValue_setValue h.wired.labelled hid w a).trans (if_neg hne)).symm

/-- The ranges that have been gone through do not cover the formula whose turn it is. -/
theorem Passable.rangeCells_setValue (h : s.Passable functions o)
    (hcut : done ++ id :: rest = o.sorted)
    (hid : s.store.get? id = some (.formula x home shown))
    (hr : s.find? (.range r) = some u) (hdone : u ∈ done) (w : Value) :
    (s.setValue id w).view.rangeCells r = s.view.rangeCells r := by
  apply List.map_congr_left
  intro a ha
  rw [cellValue_setValue h.wired.labelled hid, if_neg]
  rintro rfl
  have hread := h.wired.fed r u hr a ha
  have hhome := h.wired.labelled.find?_home hid
  have hedge := (h.wired.edge_iff id u).mpr ⟨_, _, hread, hr, hhome⟩
  have hsorted : id ∈ o.sorted := hcut ▸ List.mem_append_right _ List.mem_cons_self
  exact h.not_done hcut (h.source_done hcut (List.mem_append_left _ hdone) hedge hsorted)

/-- Caches that are true of what has been gone through may take the place of those there. -/
theorem Solving.withCaches {c : Caches} (hs : s.Solving o done) (h : s.Labelled)
    (hc : s.view.TrueCaches (s.Readable done) c) :
    Solving { s with store := { s.store with caches := c } } o done where
  cycled := hs.cycled
  shown := hs.shown
  caches r u hu hdone := hc r u (Or.inl ⟨u, hdone, hu⟩) hu (h.get?_range hu)

/-- The formula whose turn it is may be given its meaning. -/
theorem Solving.setValue (hs : s.Solving o done) (h : s.Passable Registry.builtin o)
    (hcut : done ++ id :: rest = o.sorted)
    (hid : s.store.get? id = some (.formula x home shown)) :
    (s.setValue id (x.meaning s.view.grid home)).Solving o (done ++ [id]) := by
  have hget := get?_setValue hid (x.meaning s.view.grid home)
  constructor
  case cycled =>
    intro j hj y other w hw
    rw [hget, if_neg] at hw
    · exact hs.cycled j hj y other w hw
    · rintro rfl
      exact h.not_cycled hcut hj
  case shown =>
    intro j hj y other w hw
    rw [hget] at hw
    by_cases hji : j = id
    · rw [if_pos hji] at hw
      obtain ⟨rfl, rfl, rfl⟩ := Vertex.formula.inj (Option.some.inj hw)
      exact x.meaning_congr (h.agreeOn hcut hid hid (hji ▸ hj) _)
    · rw [if_neg hji] at hw
      have hdone : j ∈ done := (List.mem_append.mp hj).resolve_right (by simpa using hji)
      rw [hs.shown j hdone y other w hw]
      exact y.meaning_congr (h.agreeOn hcut hid hw hj _)
  case caches =>
    intro r u hu hdone
    have hne : u ≠ id := by
      rintro rfl
      obtain ⟨w, hw, hfits⟩ := h.wired.labelled.fits (.range r) u hu
      obtain rfl := Option.some.inj (hid.symm.trans hw)
      exact hfits
    have hdone' : u ∈ done := (List.mem_append.mp hdone).resolve_right (by simpa using hne)
    rw [caches_setValue]
    exact (hs.caches r u hu hdone').congr (h.rangeCells_setValue hcut hid hu hdone' _)

theorem Solving.step_formula (hs : s.Solving o done) (h : s.Passable Registry.builtin o)
    (hcut : done ++ id :: rest = o.sorted)
    (hid : s.store.get? id = some (.formula x home shown)) :
    ∃ t, s.recompute Registry.builtin id = .ok t ∧ s.Reshown t ∧ t.Solving o (done ++ [id]) := by
  obtain ⟨hvalue, hcaches⟩ := hs.evaluate h hcut hid
  let c := (x.evaluate Registry.builtin home s.view s.store.caches).2
  let s' : Sheet := { s with store := { s.store with caches := c } }
  have hsame : s.Reshown s' := ⟨⟨rfl, rfl, rfl, fun _ => rfl⟩, fun _ => rfl⟩
  have h' : s'.Passable Registry.builtin o := hsame.toSameOutline.passable h
  have hs' : s'.Solving o done := hs.withCaches h.wired.labelled hcaches
  have hid' : s'.store.get? id = some (.formula x home shown) := hid
  refine ⟨s'.setValue id (x.meaning s.view.grid home), ?_,
    hsame.trans (reshown_setValue hid' _), hs'.setValue h' hcut hid'⟩
  rw [recompute, hid, ← hvalue]
  rfl

theorem Solving.step_range (hs : s.Solving o done) (hid : s.store.get? id = some (.range r)) :
    ∃ t, s.recompute Registry.builtin id = .ok t ∧ s.Reshown t ∧ t.Solving o (done ++ [id]) := by
  refine ⟨{ s with store := s.store.clearCache id }, by rw [recompute, hid],
    ⟨⟨rfl, rfl, rfl, fun _ => rfl⟩, fun _ => rfl⟩, ⟨hs.cycled, ?_, ?_⟩⟩
  · intro j hj y other w hw
    rcases List.mem_append.mp hj with hj | hj
    · exact hs.shown j hj y other w hw
    · obtain rfl := List.mem_singleton.mp hj
      exact absurd (hid.symm.trans hw) nofun
  · intro r' u hu hdone
    change ((s.store.caches.clear id).get u).Holds s.view r'
    rw [Caches.get_clear]
    by_cases hui : id = u
    · rw [if_pos hui]
      exact RangeCache.holds_of_not_filled rfl _ _
    · rw [if_neg hui]
      rcases List.mem_append.mp hdone with hdone | hdone
      · exact hs.caches r' u hu hdone
      · exact absurd (List.mem_singleton.mp hdone).symm hui

/-- A vertex that is neither a formula nor a range needs nothing. -/
theorem Solving.step_other (hs : s.Solving o done) (h : s.Labelled) {w : Vertex}
    (hid : s.store.get? id = some w) (hformula : ∀ x home shown, w ≠ .formula x home shown)
    (hrange : ∀ r, w ≠ .range r) : s.Solving o (done ++ [id]) := by
  refine ⟨hs.cycled, ?_, ?_⟩
  · intro j hj y other w' hw'
    rcases List.mem_append.mp hj with hj | hj
    · exact hs.shown j hj y other w' hw'
    · obtain rfl := List.mem_singleton.mp hj
      exact absurd (Option.some.inj (hid.symm.trans hw')) (hformula y other w')
  · intro r u hu hdone
    rcases List.mem_append.mp hdone with hdone | hdone
    · exact hs.caches r u hu hdone
    · obtain rfl := List.mem_singleton.mp hdone
      exact absurd (Option.some.inj (hid.symm.trans (h.get?_range hu))) (hrange r)

/-- The vertex whose turn it is can be recomputed. -/
theorem Solving.step (hs : s.Solving o done) (h : s.Passable Registry.builtin o)
    (hcut : done ++ id :: rest = o.sorted) :
    ∃ t, s.recompute Registry.builtin id = .ok t ∧ s.Reshown t ∧ t.Solving o (done ++ [id]) := by
  have hnode : id ∈ s.graph.toList := by
    rw [← h.arranges.perm.mem_iff, ← hcut]
    exact List.mem_append_left _ (List.mem_append_right _ List.mem_cons_self)
  have hlt := (h.wired.labelled.contains_iff id).mp
    ((h.wired.labelled.graph.mem_toList_iff id).mp hnode)
  obtain ⟨w, hw⟩ := (s.store.lt_size_iff id).mp hlt
  cases w with
  | formula x home shown => exact hs.step_formula h hcut hw
  | range r => exact hs.step_range hw
  | value v =>
      exact ⟨s, by rw [recompute, hw], Reshown.refl s,
        hs.step_other h.wired.labelled hw nofun nofun⟩
  | blank =>
      exact ⟨s, by rw [recompute, hw], Reshown.refl s,
        hs.step_other h.wired.labelled hw nofun nofun⟩

/-! ## The whole pass -/

theorem Solving.recomputeAll (hs : s.Solving o done) (h : s.Passable Registry.builtin o)
    (hcut : done ++ rest = o.sorted) :
    ∃ t, LoadedSheet.recomputeAll Registry.builtin s rest = (.ok (), t) ∧ s.Reshown t
      ∧ t.Solving o o.sorted := by
  induction rest generalizing s done with
  | nil =>
      rw [List.append_nil] at hcut
      exact ⟨s, rfl, Reshown.refl s, hcut ▸ hs⟩
  | cons id rest ih =>
      obtain ⟨s', hs', hshown, hsolving⟩ := hs.step h hcut
      have hcut' : done ++ [id] ++ rest = o.sorted := by
        rw [List.append_assoc]
        exact hcut
      obtain ⟨t, ht, hshown', hsolved⟩ := ih hsolving (hshown.toSameOutline.passable h) hcut'
      refine ⟨t, ?_, hshown.trans hshown', hsolved⟩
      rw [LoadedSheet.recomputeAll, hs']
      exact ht

/-- Formulas can be marked as being on a cycle. -/
theorem exists_markCycles {ids : List VertexId}
    (hids : ∀ id ∈ ids, ∃ x home shown, s.store.get? id = some (.formula x home shown)) :
    ∃ t, LoadedSheet.markCycles s ids = (.ok (), t) ∧ s.Reshown t
      ∧ ∀ id x home v, t.store.get? id = some (.formula x home v) →
        v = .error .cycle ∨ id ∉ ids ∧ s.store.get? id = some (.formula x home v) := by
  induction ids generalizing s with
  | nil => exact ⟨s, rfl, Reshown.refl s, fun id x home v hid => Or.inr ⟨nofun, hid⟩⟩
  | cons first ids ih =>
      obtain ⟨x, home, shown, hfirst⟩ := hids first List.mem_cons_self
      have hget := get?_setValue hfirst (.error .cycle)
      have hshown := reshown_setValue hfirst (.error .cycle)
      have hrest := hshown.toSameOutline.formulas fun id hid =>
        hids id (List.mem_cons_of_mem first hid)
      obtain ⟨t, ht, hshown', hmarked⟩ := ih hrest
      refine ⟨t, ?_, hshown.trans hshown', fun id y other v hid => ?_⟩
      · rw [LoadedSheet.markCycles, hfirst]
        exact ht
      · rcases hmarked id y other v hid with hv | ⟨hnot, hold⟩
        · exact Or.inl hv
        · rw [hget] at hold
          by_cases hidf : id = first
          · rw [if_pos hidf] at hold
            exact Or.inl (Vertex.formula.inj (Option.some.inj hold)).2.2.symm
          · rw [if_neg hidf] at hold
            exact Or.inr ⟨fun hmem => (List.mem_cons.mp hmem).elim hidf hnot, hold⟩

/-- Every formula on a cycle shows the cycle error, and every other formula shows its meaning. -/
def Solved (s : Sheet) (o : Order VertexId) : Prop :=
  ∀ id x home v, s.store.get? id = some (.formula x home v) →
    (id ∈ o.cycled → v = .error .cycle) ∧ (id ∉ o.cycled → v = x.meaning s.view.grid home)

theorem Solving.solved (hs : s.Solving o o.sorted) (h : s.Passable functions o) :
    s.Solved o := by
  intro id x home v hid
  refine ⟨fun hcyc => hs.cycled id hcyc x home v hid, fun hcyc => ?_⟩
  exact hs.shown id (h.sorted_of_not_cycled (h.wired.labelled.find?_home hid) hcyc) x home v hid

/-- The caches of all ranges are true: they hold what has been computed from the cells as they
are now. -/
def Coherent (s : Sheet) : Prop :=
  ∀ r id, s.find? (.range r) = some id → (s.store.caches.get id).Holds s.view r

theorem Solving.coherent (hs : s.Solving o o.sorted) (h : s.Passable functions o) : s.Coherent :=
  fun r id hid => hs.caches r id hid (h.sorted_of_range hid)

/-- A pass succeeds, solves the sheet and leaves all caches true. -/
theorem Passable.exists_pass (h : s.Passable Registry.builtin o) :
    ∃ t, LoadedSheet.pass Registry.builtin ⟨s, o⟩ = (.ok (), ⟨t, o⟩) ∧ s.Reshown t
      ∧ t.Solved o ∧ t.Coherent := by
  obtain ⟨s', hs', hshown, hmarked⟩ := exists_markCycles h.formulas
  have h' := hshown.toSameOutline.passable h
  have hstart : s'.Solving o [] := by
    refine ⟨fun id hid x home v hget => ?_, nofun, nofun⟩
    rcases hmarked id x home v hget with hv | ⟨hnot, -⟩
    · exact hv
    · exact absurd hid hnot
  obtain ⟨t, ht, hshown', hsolving⟩ := hstart.recomputeAll h' (List.nil_append _)
  have hpassable := hshown'.toSameOutline.passable h'
  refine ⟨t, ?_, hshown.trans hshown', hsolving.solved hpassable, hsolving.coherent hpassable⟩
  simp only [LoadedSheet.pass, hs', ht]

end Sheet

end Recalc
