import Recalc.Proofs.Graph.Building
import Recalc.Proofs.Graph.Components

/-!
# Looking for cycles in a wider graph

A graph gets one more node, without arrows, that is gone. Every set of nodes has one more place then
and every search may take one step more, but no search does anything else than before: the nodes
on cycles are found in the same order.
-/

namespace Recalc

section Arrays

variable {α : Type} {xs : Array α} {i : Nat}

theorem setIfInBounds_push (hi : i < xs.size) (x y : α) :
    (xs.push x).setIfInBounds i y = (xs.setIfInBounds i y).push x := by grind

theorem modify_push (hi : i < xs.size) (x : α) (f : α → α) :
    (xs.push x).modify i f = (xs.modify i f).push x := by grind

end Arrays

namespace Marks

variable {marks : Marks} {i : Nat}

theorem none_succ (n : Nat) : none (n + 1) = (none n).push false := Array.replicate_succ

theorem has_push_of_lt (hi : i < marks.size) (mark : Bool) :
    Marks.has (marks.push mark) i = marks.has i := by
  simp only [has, Array.getD_eq_getD_getElem?, Array.getElem?_push, if_neg hi.ne]

theorem has_push_size (hi : marks.size = i) (mark : Bool) :
    Marks.has (marks.push mark) i = mark := by
  simp [has, ← hi]

theorem add_push (hi : i < marks.size) (mark : Bool) :
    Marks.add (marks.push mark) i = (marks.add i).push mark := setIfInBounds_push hi mark true

theorem add_push_size (marks : Marks) (mark : Bool) :
    Marks.add (marks.push mark) marks.size = marks.push true := by grind [add]

theorem addAll_push {is : List Nat} (h : ∀ i ∈ is, i < marks.size) (mark : Bool) :
    Marks.addAll (marks.push mark) is = (marks.addAll is).push mark := by
  induction is generalizing marks with
  | nil => rfl
  | cons i is ih =>
      obtain ⟨hi, his⟩ := List.forall_mem_cons.mp h
      rw [addAll, List.foldl_cons, add_push hi]
      exact ih fun j hj => (size_add marks i).symm ▸ his j hj

theorem filter_has_push (marks : Marks) :
    (List.range (marks.size + 1)).filter (Marks.has (marks.push false))
      = (List.range marks.size).filter marks.has := by
  rw [List.range_succ, List.filter_append, List.filter_singleton, has_push_size rfl, cond_false,
    List.append_nil]
  exact List.filter_congr fun i hi => has_push_of_lt (List.mem_range.mp hi) false

end Marks

/-- The forward search in a wider graph. Its depth is enough for all nodes not yet visited. -/
structure Search.Widens (arrows : Arrows) (depth : Nat) (s t : Search) : Prop where
  size : s.visited.size = arrows.size
  enough : s.visited.absent.card ≤ depth
  visited : t.visited = s.visited.push false
  finished : t.finished = s.finished

/-- Rows of arrows in a wider graph. -/
structure Arrows.Widens (arrows back wide : Arrows) : Prop where
  size : back.size = arrows.size
  rows : wide = back.push #[]

theorem Search.Widens.has_eq {arrows : Arrows} {depth i : Nat} {s t : Search}
    (h : s.Widens arrows depth t) (hi : i < arrows.size) : t.visited.has i = s.visited.has i := by
  rw [h.visited, Marks.has_push_of_lt (h.size ▸ hi)]

namespace Arrows

variable {arrows : Arrows} {gone : Marks}

theorem next_size (arrows : Arrows) : arrows.next arrows.size = [] :=
  List.eq_nil_iff_forall_not_mem.mpr fun _ hj => (lt_size_of_mem_next hj).false

/-! ## The forward search -/

section

variable (wf : arrows.WellFormed) (hgone : gone.size = arrows.size)
include wf hgone

theorem widens_visit (depth : Nat) {node : Nat} (hnode : node < arrows.size) {s t : Search}
    (h : s.Widens arrows depth t) :
    (arrows.visit gone depth node s).Widens arrows depth
      (Arrows.visit (arrows.push #[]) (gone.push true) (depth + 1) node t) := by
  induction depth generalizing node s t with
  | zero =>
      have hall : s.visited.has node = true := by
        by_contra hnew
        have hmem : node ∈ s.visited.absent :=
          Marks.mem_absent.mpr ⟨h.size ▸ hnode, by simpa using hnew⟩
        rw [Finset.card_eq_zero.mp (Nat.le_zero.mp h.enough)] at hmem
        cases hmem
      simpa only [visit, h.has_eq hnode, hall, Bool.or_true, if_true] using h
  | succ depth ih =>
      rw [visit, visit, h.has_eq hnode, Marks.has_push_of_lt (hgone ▸ hnode)]
      by_cases hstop : (gone.has node || s.visited.has node) = true
      · simpa only [hstop, if_true] using h
      have hnew : s.visited.has node = false := (Bool.or_eq_false_iff.mp (by simpa using hstop)).2
      have hopened : Search.Widens arrows depth { s with visited := s.visited.add node }
          { t with visited := t.visited.add node } := by
        have hcard := Marks.card_absent_add_lt (h.size ▸ hnode) hnew
        have henough := h.enough
        refine ⟨by simpa using h.size, ?_, ?_, h.finished⟩
        · change (s.visited.add node).absent.card ≤ depth
          omega
        · simp only [h.visited, Marks.add_push (h.size ▸ hnode)]
      have hnext := List.foldl_rel (l := arrows.next node) hopened fun j hj _ _ h =>
        ih (wf.bounded hj) h
      simp only [hstop, next_push]
      exact ⟨hnext.size, hnext.enough.trans (Nat.le_succ _), hnext.visited,
        congrArg (node :: ·) hnext.finished⟩

theorem finished_push :
    Arrows.finished (arrows.push #[]) (gone.push true) = arrows.finished gone := by
  have hstart : Search.Widens arrows arrows.size ⟨Marks.none arrows.size, []⟩
      ⟨Marks.none (arrows.size + 1), []⟩ :=
    ⟨Marks.size_none _, (Marks.card_absent_le _).trans (Marks.size_none _).le, Marks.none_succ _,
      rfl⟩
  have hroots := List.foldl_rel (l := List.range arrows.size) hstart fun root hroot _ _ h =>
    widens_visit wf hgone arrows.size (List.mem_range.mp hroot) h
  rw [finished, Array.size_push, List.range_succ, List.foldl_append, List.foldl_cons,
    List.foldl_nil, visit, Marks.has_push_size hgone, Bool.true_or, if_pos rfl]
  exact hroots.finished

/-! ## Arrows turned round -/

theorem widens_reverse {i : Nat} (hi : i < arrows.size) {back wide : Arrows}
    (h : arrows.Widens back wide) :
    Widens arrows
      (if gone.has i then back
        else (arrows.next i).foldl (fun back j =>
          if gone.has j then back else back.modify j (·.push i)) back)
      (if Marks.has (gone.push true) i then wide
        else (Arrows.next (arrows.push #[]) i).foldl (fun back j =>
          if Marks.has (gone.push true) j then back else back.modify j (·.push i)) wide) := by
  rw [Marks.has_push_of_lt (hgone ▸ hi), next_push]
  split
  · exact h
  refine List.foldl_rel (r := Widens arrows) h fun j hj back wide h => ?_
  rw [Marks.has_push_of_lt (hgone ▸ wf.bounded hj)]
  split
  · exact h
  · exact ⟨by simpa using h.size, by rw [h.rows, modify_push (h.size ▸ wf.bounded hj)]⟩

theorem reversed_push :
    Arrows.reversed (arrows.push #[]) (gone.push true) = (arrows.reversed gone).push #[] := by
  have hstart : Widens arrows (Array.replicate arrows.size #[])
      (Array.replicate (arrows.size + 1) #[]) := ⟨Array.size_replicate, Array.replicate_succ⟩
  have hrows := List.foldl_rel (l := List.range arrows.size) hstart fun i hi _ _ h =>
    widens_reverse wf hgone (List.mem_range.mp hi) h
  rw [reversed, Array.size_push, List.range_succ, List.foldl_append, List.foldl_cons,
    List.foldl_nil, Marks.has_push_size hgone, if_pos rfl]
  exact hrows.rows

end

/-! ## Gathering a component -/

/-- Gathering in a wider graph. Its limit is enough for all nodes that belong to no component. -/
structure Gathering.Widens (arrows : Arrows) (limit : Nat) (s t : Gathering) : Prop where
  size : s.assigned.size = arrows.size
  enough : s.assigned.absent.card + s.pending.length ≤ limit
  pending : t.pending = s.pending
  assigned : t.assigned = s.assigned.push false
  members : t.members = s.members

/-- What has been found in a wider graph. -/
structure WidensFound (arrows : Arrows) (found wide : Marks × Array Nat) : Prop where
  size : found.1.size = arrows.size
  assigned : wide.1 = found.1.push false
  members : wide.2 = found.2

section

variable {back : Arrows} (hback : ∀ j, ∀ k ∈ back.next j, k < arrows.size)

theorem Gathering.Widens.has_eq {limit : Nat} {s t : Gathering} (h : s.Widens arrows limit t)
    {i : Nat} (hi : i < arrows.size) : t.assigned.has i = s.assigned.has i := by
  rw [h.assigned, Marks.has_push_of_lt (h.size ▸ hi)]

theorem Gathering.Widens.meet {limit : Nat} {s t : Gathering} (h : s.Widens arrows limit t)
    {j : Nat} (hj : j < arrows.size) : (s.meet j).Widens arrows limit (t.meet j) := by
  rw [Gathering.meet, Gathering.meet, h.has_eq hj]
  split
  · exact h
  · next hmet =>
      have hcard := Marks.card_absent_add_lt (h.size ▸ hj) (by simpa using hmet)
      have henough := h.enough
      refine ⟨by simpa using h.size, ?_, by rw [h.pending], ?_, by rw [h.members]⟩
      · change (s.assigned.add j).absent.card + (s.pending.length + 1) ≤ limit
        omega
      · simp only [h.assigned, Marks.add_push (h.size ▸ hj)]

include hback

theorem widens_gather (limit : Nat) {s t : Gathering} (h : s.Widens arrows limit t) :
    (gather back limit s).Widens arrows limit (gather (back.push #[]) (limit + 1) t) := by
  induction limit generalizing s t with
  | zero =>
      have hnone : s.pending = [] :=
        List.length_eq_zero_iff.mp (Nat.le_zero.mp ((Nat.le_add_left _ _).trans h.enough))
      simpa only [gather, h.pending, hnone] using h
  | succ limit ih =>
      rw [gather, gather, h.pending]
      split
      · exact h
      · next node pending hpending =>
          have henough := h.enough
          rw [hpending, List.length_cons] at henough
          have hfollowed : Gathering.Widens arrows limit { s with pending } { t with pending } :=
            ⟨h.size, Nat.le_of_succ_le_succ henough, rfl, h.assigned, h.members⟩
          have hmet := List.foldl_rel (f := Gathering.meet) (g := Gathering.meet) hfollowed
            fun j hj _ _ h => h.meet (hback node j hj)
          have h' := ih hmet
          rw [next_push]
          exact ⟨h'.size, h'.enough.trans (Nat.le_succ _), h'.pending, h'.assigned, h'.members⟩

omit hback in
theorem isCycle_push (arrows : Arrows) (root : Nat) (members : Array Nat) :
    Arrows.isCycle (arrows.push #[]) root members = arrows.isCycle root members := by
  rw [isCycle, isCycle, next_push]

theorem widens_gatherFrom {found wide : Marks × Array Nat} {root : Nat}
    (hroot : root < arrows.size) (h : WidensFound arrows found wide) :
    WidensFound arrows (arrows.gatherFrom back found root)
      (Arrows.gatherFrom (arrows.push #[]) (back.push #[]) wide root) := by
  rw [gatherFrom, gatherFrom, h.assigned, Marks.has_push_of_lt (h.size ▸ hroot)]
  split
  · exact h
  · next hmet =>
      have hstart : Gathering.Widens arrows arrows.size ⟨[root], found.1.add root, #[root]⟩
          ⟨[root], Marks.add (found.1.push false) root, #[root]⟩ := by
        refine ⟨by simpa using h.size, ?_, rfl, Marks.add_push (h.size ▸ hroot) false, rfl⟩
        have hcard := Marks.card_absent_add_lt (h.size ▸ hroot) (by simpa using hmet)
        exact (Nat.succ_le_of_lt hcard).trans (h.size ▸ found.1.card_absent_le)
      have hend := widens_gather hback arrows.size hstart
      rw [Array.size_push]
      refine ⟨hend.size, hend.assigned, ?_⟩
      simp only [hend.members, h.members, isCycle_push]

end

/-- In a wider graph the same nodes are found on cycles, in the same order. -/
theorem cycleMembers_push (wf : arrows.WellFormed) (hgone : gone.size = arrows.size) :
    Arrows.cycleMembers (arrows.push #[]) (gone.push true) = arrows.cycleMembers gone := by
  have hstart : WidensFound arrows (Marks.none arrows.size, #[])
      (Marks.none (arrows.size + 1), #[]) := ⟨Marks.size_none _, Marks.none_succ _, rfl⟩
  have hback : ∀ j, ∀ k ∈ (arrows.reversed gone).next j, k < arrows.size := fun j k hk =>
    lt_size_of_mem_next ((mem_next_reversed wf gone j k).mp hk).2.2
  have hroots := (finishes_finished wf gone).mem_iff
  have hfound := List.foldl_rel (f := arrows.gatherFrom (arrows.reversed gone))
    (g := Arrows.gatherFrom (arrows.push #[]) ((arrows.reversed gone).push #[])) hstart
    fun root hroot _ _ h => widens_gatherFrom hback ((hroots root).mp hroot).1 h
  rw [cycleMembers, cycleMembers, finished_push wf hgone, reversed_push wf hgone, Array.size_push]
  exact congrArg Array.toList hfound.members

end Arrows

end Recalc
