import Recalc.Proofs.Graph.Order
import Recalc.Proofs.Graph.Widening

/-!
# A node without arrows

A graph with one more node, without arrows, is sorted as the graph without it: the node stands
somewhere among the ready nodes, and the two sorts do the same before and behind it. The wider sort
does one thing more, which is to place that node, so the two are compared where both have placed all
that is ready.
-/

namespace Recalc

namespace Sorting

variable {arrows : Arrows} {s t : Sorting} {passed : Bool}

/-- A sort in a wider graph. The further node waits for nothing and stands behind `before` among the
ready nodes; `passed` tells whether it has been placed. -/
structure Widens (arrows : Arrows) (passed : Bool) (s t : Sorting) : Prop where
  waiting_size : s.waiting.size = arrows.size
  gone_size : s.gone.size = arrows.size
  waiting : t.waiting = s.waiting.push 0
  gone : t.gone = s.gone.push passed
  placed : t.placed = s.placed + passed.toNat
  cycled : t.cycled = s.cycled
  ready : ∃ before after, s.ready.toList = before ++ after
    ∧ t.ready.toList = before ++ arrows.size :: after
    ∧ if passed then before.length ≤ s.placed else s.placed ≤ before.length

/-! ## The start -/

theorem arrowsInto_push (wf : arrows.WellFormed) :
    arrowsInto (arrows.push #[]) = (arrowsInto arrows).push 0 := by
  have htargets : (List.range (arrows.push #[]).size).flatMap (Arrows.next (arrows.push #[]))
      = (List.range arrows.size).flatMap arrows.next := by
    rw [Array.size_push, List.range_succ, List.flatMap_append, List.flatMap_singleton,
      Arrows.next_push, Arrows.next_size, List.append_nil]
    exact congrArg (List.flatMap · _) (funext (Arrows.next_push arrows))
  rw [arrowsInto_eq_foldl, arrowsInto_eq_foldl, htargets, Array.size_push]
  refine (List.foldl_rel (r := fun counts wide : Array Nat => counts.size = arrows.size
    ∧ wide = counts.push 0) ⟨Array.size_replicate, Array.replicate_succ⟩
    fun j hj counts wide h => ?_).2
  obtain ⟨i, -, hij⟩ := List.mem_flatMap.mp hj
  exact ⟨by simpa using h.1, by rw [h.2, modify_push (h.1 ▸ wf.bounded hij)]⟩

theorem getD_push_of_lt {xs : Array Nat} {i : Nat} (hi : i < xs.size) (x : Nat) :
    (xs.push x).getD i 0 = xs.getD i 0 := by
  simp only [Array.getD_eq_getD_getElem?, Array.getElem?_push, if_neg hi.ne]

theorem widens_start (wf : arrows.WellFormed) :
    (start arrows).Widens arrows false (start (arrows.push #[])) := by
  have hsize := size_arrowsInto arrows
  refine ⟨hsize, Marks.size_none _, arrowsInto_push wf, ?_, rfl, rfl, (start arrows).ready.toList,
    [], (List.append_nil _).symm, ?_, Nat.zero_le _⟩
  · simp only [start, Array.size_push, Marks.none_succ]
  · have hlast : ((arrowsInto arrows).push 0).getD arrows.size 0 = 0 := by
      simp [Array.getD_eq_getD_getElem?, ← hsize]
    simp only [start, arrowsInto_push wf, Array.size_push, List.range_succ, List.filter_append,
      List.filter_singleton, hlast, beq_self_eq_true]
    congr 1
    refine List.filter_congr fun i hi => ?_
    rw [getD_push_of_lt (hsize ▸ List.mem_range.mp hi)]

/-! ## One step of both -/

namespace Widens

theorem release (h : s.Widens arrows passed t) {j : Nat} (hj : j < arrows.size) :
    (s.release j).Widens arrows passed (t.release j) := by
  obtain ⟨before, after, hs, ht, hplaced⟩ := h.ready
  have hsize : j < s.waiting.size := h.waiting_size ▸ hj
  have hleft : t.waiting.getD j 0 = s.waiting.getD j 0 := by
    rw [h.waiting, getD_push_of_lt hsize]
  refine ⟨by simpa [Sorting.release] using h.waiting_size, h.gone_size, ?_, h.gone, h.placed,
    h.cycled, before, after ++ if s.waiting.getD j 0 ≤ 1 then [j] else [], ?_, ?_, hplaced⟩
  · simp only [Sorting.release, hleft]
    rw [h.waiting, setIfInBounds_push hsize]
  · rw [toList_ready_release, hs, List.append_assoc]
  · rw [toList_ready_release, ht, hleft, List.append_assoc, List.cons_append]

theorem foldl_release (h : s.Widens arrows passed t) {targets : List Nat}
    (htargets : ∀ j ∈ targets, j < arrows.size) :
    (targets.foldl Sorting.release s).Widens arrows passed (targets.foldl Sorting.release t) :=
  List.foldl_rel (f := Sorting.release) (g := Sorting.release) h fun j hj _ _ h =>
    h.release (htargets j hj)

/-- Either both sorts go on with the same node, or the wider one with the further node. -/
theorem next_cases (h : s.Widens arrows passed t) :
    t.ready[t.placed]? = s.ready[s.placed]?
        ∧ (s.ready[s.placed]? ≠ none → Widens arrows passed { s with placed := s.placed + 1 }
          { t with placed := t.placed + 1 })
      ∨ t.ready[t.placed]? = some arrows.size
        ∧ Widens arrows true s
          { t with gone := t.gone.add arrows.size, placed := t.placed + 1 } := by
  obtain ⟨before, after, hs, ht, hplaced⟩ := h.ready
  have hboth : t.placed + 1 = s.placed + 1 + passed.toNat := by
    rw [h.placed, Nat.add_right_comm]
  rw [← Array.getElem?_toList, ← Array.getElem?_toList, hs, ht]
  cases passed with
  | true =>
      have hle : before.length ≤ s.placed := hplaced
      have hbehind : t.placed = s.placed + 1 := h.placed
      refine .inl ⟨?_, fun _ => ⟨h.waiting_size, h.gone_size, h.waiting, h.gone, hboth, h.cycled,
        before, after, hs, ht, hle.trans (Nat.le_succ _)⟩⟩
      rw [hbehind, List.getElem?_append_right (Nat.le_succ_of_le hle),
        List.getElem?_append_right hle, Nat.succ_sub hle, List.getElem?_cons_succ]
  | false =>
      have hle : s.placed ≤ before.length := hplaced
      have hbefore : t.placed = s.placed := h.placed
      rw [hbefore]
      obtain hlt | heq := hle.lt_or_eq
      · refine .inl ⟨?_, fun _ => ⟨h.waiting_size, h.gone_size, h.waiting, h.gone, ?_, h.cycled,
          before, after, hs, ht, hlt⟩⟩
        · rw [List.getElem?_append_left hlt, List.getElem?_append_left hlt]
        · rfl
      · refine .inr ⟨?_, h.waiting_size, h.gone_size, h.waiting, ?_, rfl, h.cycled, before, after,
          hs, ht, heq.ge⟩
        · rw [List.getElem?_append_right heq.ge, heq, Nat.sub_self, List.getElem?_cons_zero]
        · rw [h.gone, ← h.gone_size, Marks.add_push_size]

theorem place (wf : arrows.WellFormed) {i : Nat} (hi : i < arrows.size)
    (h : Widens arrows passed { s with placed := s.placed + 1 }
      { t with placed := t.placed + 1 }) :
    (s.place arrows i).Widens arrows passed (t.place (arrows.push #[]) i) := by
  have hgone : Widens arrows passed { s with gone := s.gone.add i, placed := s.placed + 1 }
      { t with gone := t.gone.add i, placed := t.placed + 1 } := by
    refine ⟨h.waiting_size, (Marks.size_add _ _).trans h.gone_size, h.waiting, ?_, h.placed,
      h.cycled, h.ready⟩
    have hpushed : t.gone = s.gone.push passed := h.gone
    have hsize : s.gone.size = arrows.size := h.gone_size
    simp only [hpushed, Marks.add_push (hsize ▸ hi)]
  rw [Sorting.place, Sorting.place, Arrows.next_push]
  exact hgone.foldl_release fun _ hj => wf.bounded hj

end Widens

/-! ## Placing all that is ready -/

theorem drain_of_placed (h : s.placed = s.ready.toList.length) (limit : Nat) :
    s.drain arrows limit = s := by
  cases limit with
  | zero => rfl
  | succ limit =>
      rw [drain, Array.getElem?_eq_none (by rw [h, Array.length_toList])]

theorem drain_add (first second : Nat) (s : Sorting) :
    s.drain arrows (first + second) = (s.drain arrows first).drain arrows second := by
  induction first generalizing s with
  | zero => rw [Nat.zero_add, drain]
  | succ first ih =>
      rw [Nat.succ_add, drain, drain]
      cases hnext : s.ready[s.placed]? with
      | none =>
          cases second with
          | zero => rfl
          | succ second => rw [drain, hnext]
      | some i => exact ih _

/-- Once all that is ready has been placed, it no longer matters how much may be placed. -/
theorem drain_eq_drain {first second : Nat}
    (h : (s.drain arrows first).placed = (s.drain arrows first).ready.toList.length)
    (h' : (s.drain arrows second).placed = (s.drain arrows second).ready.toList.length) :
    s.drain arrows first = s.drain arrows second := by
  obtain hle | hle := Nat.le_total first second
  · rw [← Nat.add_sub_of_le hle, drain_add, drain_of_placed h]
  · rw [← Nat.add_sub_of_le hle, drain_add, drain_of_placed h']

namespace Widens

theorem exists_drain (wf : arrows.WellFormed) (limit : Nat) (sound : s.Sound arrows)
    (h : s.Widens arrows passed t) :
    ∃ limit' passed', (s.drain arrows limit').Widens arrows passed'
      (t.drain (arrows.push #[]) limit) := by
  induction limit generalizing s t passed with
  | zero => exact ⟨0, passed, h⟩
  | succ limit ih =>
      rw [drain]
      obtain ⟨hsame, hnext⟩ | ⟨hlast, hpassed⟩ := h.next_cases
      · rw [hsame]
        cases hs : s.ready[s.placed]? with
        | none => exact ⟨0, passed, h⟩
        | some i =>
            have hplaced := (hnext (hs ▸ Option.some_ne_none i)).place wf
              (sound.lt_size_of_next hs)
            obtain ⟨limit', passed', h'⟩ := ih (sound.place wf hs) hplaced
            refine ⟨limit' + 1, passed', ?_⟩
            rw [drain, hs]
            exact h'
      · simp only [hlast, Sorting.place, Arrows.next_push, Arrows.next_size, List.foldl_nil]
        exact ih sound hpassed

/-- The further node is passed once all that is ready in the wider graph has been placed. -/
theorem placed_eq (h : s.Widens arrows passed t) (ht : t.placed = t.ready.toList.length) :
    passed = true ∧ s.placed = s.ready.toList.length := by
  obtain ⟨before, after, hs, ht', hplaced⟩ := h.ready
  have hboth := h.placed
  rw [ht, ht', List.length_append, List.length_cons] at hboth
  cases passed with
  | true =>
      rw [Bool.toNat_true] at hboth
      exact ⟨rfl, by rw [hs, List.length_append]; omega⟩
  | false =>
      have hle : s.placed ≤ before.length := hplaced
      rw [Bool.toNat_false] at hboth
      omega

theorem drain (wf : arrows.WellFormed) (sound : s.Sound arrows)
    (sound' : t.Sound (arrows.push #[])) (h : s.Widens arrows passed t) :
    (s.drain arrows arrows.size).Widens arrows true
      (t.drain (arrows.push #[]) (arrows.push #[]).size) := by
  obtain ⟨limit, passed', h'⟩ := h.exists_drain wf (arrows.push #[]).size sound
  obtain ⟨rfl, hplaced⟩ :=
    h'.placed_eq ((sound_drain wf.push _ sound').2.2 (Nat.le_add_left _ _))
  have hall := (sound_drain wf arrows.size sound).2.2 (Nat.le_add_left _ _)
  rwa [drain_eq_drain hplaced hall] at h'

/-! ## The whole run -/

theorem setAside (wf : arrows.WellFormed) (h : s.Widens arrows true t) {members : List Nat}
    (hmembers : ∀ i ∈ members, i < arrows.size) :
    (s.setAside arrows members).Widens arrows true (t.setAside (arrows.push #[]) members) := by
  have hgone : Widens arrows true { s with gone := s.gone.addAll members }
      { t with gone := t.gone.addAll members } := by
    refine ⟨h.waiting_size, ?_, h.waiting, ?_, h.placed, h.cycled, h.ready⟩
    · exact (Marks.size_addAll _ _).trans h.gone_size
    · simp only [h.gone, Marks.addAll_push fun i hi => h.gone_size ▸ hmembers i hi]
  have hreleased := List.foldl_rel (l := members) (f := releaseFrom arrows)
    (g := releaseFrom (arrows.push #[])) hgone fun i hi s t h => by
      rw [releaseFrom, releaseFrom, Arrows.next_push]
      refine List.foldl_rel (r := Widens arrows true) h fun j hj s t h => ?_
      have hlt := wf.bounded hj
      rw [h.gone, Marks.has_push_of_lt (h.gone_size ▸ hlt)]
      split
      · exact h
      · exact h.release hlt
  exact ⟨hreleased.waiting_size, hreleased.gone_size, hreleased.waiting, hreleased.gone,
    hreleased.placed, by rw [Sorting.setAside, Sorting.setAside, hreleased.cycled],
    hreleased.ready⟩

theorem length_eq (h : s.Widens arrows passed t) :
    (t.ready.toList ++ t.cycled.toList).length
      = (s.ready.toList ++ s.cycled.toList).length + 1 := by
  obtain ⟨before, after, hs, ht, -⟩ := h.ready
  simp only [hs, ht, h.cycled, List.length_append, List.length_cons]
  omega

end Widens

theorem widens_run (wf : arrows.WellFormed) :
    (run arrows).Widens arrows true (run (arrows.push #[])) := by
  have hfirst := (widens_start wf).drain wf (sound_start wf) (sound_start wf.push)
  have hlength := hfirst.length_eq
  have hsize : (arrows.push #[]).size = arrows.size + 1 := Array.size_push _
  obtain ⟨h, hrun⟩ | ⟨h, hrun⟩ := run_cases wf <;>
    obtain ⟨h', hrun'⟩ | ⟨h', hrun'⟩ := run_cases wf.push
  · rw [hrun, hrun']
    exact hfirst
  · exact absurd (hlength.trans (congrArg (· + 1) h.all)) (hsize ▸ h'.rest)
  · have hall := h'.all
    exact absurd (by omega) h.rest
  · have hmembers := Arrows.cycleMembers_push wf hfirst.gone_size
    rw [← hfirst.gone] at hmembers
    have hsound' := (h'.step wf.push).sound wf.push h'.sound
    rw [hmembers] at hrun' hsound'
    rw [hrun, hrun']
    refine (hfirst.setAside wf fun i hi => ?_).drain wf ((h.step wf).sound wf h.sound) hsound'
    exact ((Arrows.mem_cycleMembers wf _ i).mp hi).lt_size

theorem Widens.cycledInOrder (h : s.Widens arrows passed t)
    (hcycled : ∀ i ∈ s.cycled.toList, i < arrows.size) : t.cycledInOrder = s.cycledInOrder := by
  have hmarks : (Marks.none t.gone.size).addAll t.cycled.toList
      = ((Marks.none s.gone.size).addAll s.cycled.toList).push false := by
    rw [h.gone, Array.size_push, Marks.none_succ, h.cycled, Marks.addAll_push fun i hi => ?_]
    rw [Marks.size_none, h.gone_size]
    exact hcycled i hi
  have hfilter := Marks.filter_has_push ((Marks.none s.gone.size).addAll s.cycled.toList)
  rw [Marks.size_addAll, Marks.size_none] at hfilter
  simp only [Sorting.cycledInOrder, hmarks]
  rw [h.gone, Array.size_push, hfilter]

end Sorting

namespace Graph

variable {α : Type} [Ord α] {g : Graph α} {a : α}

theorem named_addNode_self (ha : g.contains a = false) :
    (g.addNode a).named [g.nodes.size] = [a] := by
  rw [addNode_of_new ha]
  simp [named]

theorem WellFormed.sort_addNode (h : g.WellFormed) (ha : g.contains a = false) :
    (g.addNode a).sort.cycled = g.sort.cycled
      ∧ ∃ before after, g.sort.sorted = before ++ after
        ∧ (g.addNode a).sort.sorted = before ++ a :: after := by
  have hrun := Sorting.widens_run h.arrows
  have hbounded := (Sorting.complete_run h.arrows).sound.bounded
  have harrows : (g.addNode a).arrows = g.arrows.push #[] := by rw [addNode_of_new ha]
  obtain ⟨before, after, hs, ht, -⟩ := hrun.ready
  have hready : ∀ i ∈ before ++ after, i < g.nodes.size := fun i hi =>
    h.size ▸ hbounded i (List.mem_append_left _ (hs ▸ hi))
  obtain ⟨hbefore, hafter⟩ := List.forall_mem_append.mp hready
  constructor
  · rw [sort, sort, harrows, hrun.cycledInOrder fun i hi => hbounded i (List.mem_append_right _ hi)]
    refine named_addNode g a fun i hi => ?_
    rw [← h.size, ← hrun.gone_size]
    exact List.mem_range.mp (List.mem_of_mem_filter hi)
  · refine ⟨g.named before, g.named after, ?_, ?_⟩
    · rw [sort, hs, named_append]
    · rw [sort, harrows, ht, named_append, ← List.singleton_append, named_append, h.size,
        named_addNode_self ha, named_addNode g a hbefore, named_addNode g a hafter,
        List.singleton_append]

/-- In every graph that can be built, a new node without arrows changes nothing in the order of the
others: the same nodes are set aside, and without the new node the sorted ones are those of
before. -/
theorem sort_built_addNode [Std.TransOrd α] [Std.LawfulEqOrd α] [DecidableEq α]
    (changes : List (GraphChange α)) (a : α) (ha : (built changes).contains a = false) :
    let g := built changes
    (g.addNode a).sort.cycled = g.sort.cycled ∧ a ∈ (g.addNode a).sort.sorted
      ∧ (g.addNode a).sort.sorted.filter (· ≠ a) = g.sort.sorted := by
  intro g
  have wf : g.WellFormed := wellFormed_built changes
  obtain ⟨hcycled, before, after, hs, ht⟩ := wf.sort_addNode ha
  have hold : ∀ b ∈ g.sort.sorted, b ≠ a := by
    rintro b hb rfl
    have hb' := wf.arranges_sort.perm.mem_iff.mp (List.mem_append_left _ hb)
    exact Bool.false_ne_true (ha.symm.trans ((wf.mem_toList_iff b).mp hb'))
  refine ⟨hcycled, ?_, ?_⟩
  · rw [ht]
    exact List.mem_append_right _ List.mem_cons_self
  · have hrest : (before ++ after).filter (· ≠ a) = before ++ after :=
      List.filter_eq_self.mpr fun b hb => decide_eq_true (hold b (hs ▸ hb))
    rw [ht, hs, List.filter_append, List.filter_cons_of_neg (by simp), ← List.filter_append, hrest]

/-- The new node is ready at once, before the nodes that are released later. -/
theorem sort_built_addNode_twoCycles :
    let g := built twoCycles
    g.contains 7 = false ∧ (g.addNode 7).sort.sorted = [0, 7, 3, 6]
      ∧ (g.addNode 7).sort.cycled = g.sort.cycled
      ∧ (g.addNode 7).sort.sorted.filter (· ≠ 7) = g.sort.sorted := by
  intro g
  have hnew : g.contains 7 = false := by decide +kernel
  obtain ⟨hcycled, -, hsorted⟩ := sort_built_addNode twoCycles 7 hnew
  exact ⟨hnew, by decide +kernel, hcycled, hsorted⟩

end Graph

end Recalc
