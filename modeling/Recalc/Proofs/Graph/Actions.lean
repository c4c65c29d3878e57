import Recalc.Proofs.Graph.Building
import Recalc.Proofs.Graph.Order
import Recalc.Proofs.Graph.Rounds

/-!
# A sort, one action at a time

A run is a list of actions, each of which does one thing to the state: a ready node is placed, an
arrow is released, the cycles are looked for, the nodes on them are set aside. In every state on the
way the counts are safe: no arrow is released that a node does not wait for, no node becomes ready
twice, and a node that has been set aside always waits for more.
-/

namespace Recalc.Sorting

/-- One thing that a sort does. -/
inductive Action where
  /-- Place the next ready node. -/
  | take (i : Nat)
  /-- Count one arrow to a node as dealt with. -/
  | release (j : Nat)
  /-- Look for the nodes on cycles of nodes that are left; those found go. -/
  | search (found : List Nat)
  /-- Set nodes aside that have gone. -/
  | keep (members : List Nat)
  deriving DecidableEq

def Action.isSearch : Action → Bool
  | search _ => true
  | _ => false

/-- Take one action. -/
def act (s : Sorting) : Action → Sorting
  | .take i => { s with gone := s.gone.add i, placed := s.placed + 1 }
  | .release j => s.release j
  | .search found => { s with gone := s.gone.addAll found }
  | .keep members => { s with cycled := s.cycled ++ members.toArray }

/-- Take actions one after the other. -/
def actAll (s : Sorting) (actions : List Action) : Sorting := actions.foldl act s

/-- The actions that place up to `limit` ready nodes. -/
def drainActions (arrows : Arrows) : Nat → Sorting → List Action
  | 0, _ => []
  | limit + 1, s =>
      match s.ready[s.placed]? with
      | none => []
      | some i =>
          .take i :: (arrows.next i).map .release ++ drainActions arrows limit (s.place arrows i)

/-- The actions that set nodes aside. -/
def asideActions (arrows : Arrows) (s : Sorting) (members : List Nat) : List Action :=
  .search members
    :: (targetsLeft arrows (s.gone.addAll members) members).map .release ++ [.keep members]

/-- The actions of up to `limit` rounds. A round that finds no cycle is the last. -/
def roundActions (arrows : Arrows) : Nat → Sorting → List Action
  | 0, _ => []
  | limit + 1, s =>
      let t := s.drain arrows arrows.size
      drainActions arrows arrows.size s ++
        if t.ready.size + t.cycled.size = arrows.size then []
        else
          match arrows.cycleMembers t.gone with
          | [] => [.search []]
          | members =>
              asideActions arrows t members
                ++ roundActions arrows limit (t.setAside arrows members)

/-- The actions of the sort of a graph. -/
def actions (arrows : Arrows) : List Action :=
  roundActions arrows (arrows.size + 1) (start arrows)

variable {arrows : Arrows} {s t : Sorting}

/-! ## The actions make up the run -/

section Running

theorem actAll_append (s : Sorting) (first second : List Action) :
    s.actAll (first ++ second) = (s.actAll first).actAll second := List.foldl_append

theorem actAll_map_release (s : Sorting) (targets : List Nat) :
    s.actAll (targets.map .release) = targets.foldl release s := List.foldl_map

theorem actAll_place (arrows : Arrows) (s : Sorting) (i : Nat) :
    s.actAll (.take i :: (arrows.next i).map .release) = s.place arrows i :=
  actAll_map_release _ _

theorem actAll_drainActions (limit : Nat) (s : Sorting) :
    s.actAll (drainActions arrows limit s) = s.drain arrows limit := by
  induction limit generalizing s with
  | zero => rfl
  | succ limit ih =>
      rw [drainActions, drain]
      cases s.ready[s.placed]? with
      | none => rfl
      | some i => simp only [actAll_append, actAll_place, ih]

theorem actAll_asideActions (arrows : Arrows) (s : Sorting) (members : List Nat) :
    s.actAll (asideActions arrows s members) = s.setAside arrows members := by
  have hreleased : s.actAll (.search members
      :: (targetsLeft arrows (s.gone.addAll members) members).map .release)
      = members.foldl (releaseFrom arrows) { s with gone := s.gone.addAll members } := by
    rw [foldl_releaseFrom]
    exact actAll_map_release _ _
  rw [asideActions, actAll_append, hreleased]
  rfl

theorem actAll_roundActions (limit : Nat) (s : Sorting) :
    s.actAll (roundActions arrows limit s) = s.rounds arrows limit := by
  induction limit generalizing s with
  | zero => rfl
  | succ limit ih =>
      rw [roundActions, rounds, actAll_append, actAll_drainActions]
      split
      · rfl
      · cases arrows.cycleMembers (s.drain arrows arrows.size).gone with
        | nil => rfl
        | cons first others => simp only [actAll_append, actAll_asideActions, ih]

theorem actAll_actions (arrows : Arrows) : (start arrows).actAll (actions arrows) = run arrows :=
  actAll_roundActions _ _

end Running

/-! ## What no action undoes -/

/-- Lists of nodes only grow, at the end. -/
structure Grows (s t : Sorting) : Prop where
  ready : s.ready.toList <+: t.ready.toList
  cycled : s.cycled.toList <+: t.cycled.toList

section Growing

theorem grows_act (s : Sorting) (a : Action) : s.Grows (s.act a) := by
  cases a with
  | take i => exact ⟨List.prefix_rfl, List.prefix_rfl⟩
  | release j =>
      refine ⟨?_, List.prefix_rfl⟩
      rw [act, toList_ready_release]
      exact List.prefix_append _ _
  | search found => exact ⟨List.prefix_rfl, List.prefix_rfl⟩
  | keep members =>
      refine ⟨List.prefix_rfl, ?_⟩
      simp only [act, Array.toList_append]
      exact List.prefix_append _ _

theorem grows_actAll (s : Sorting) (all : List Action) : s.Grows (s.actAll all) := by
  induction all generalizing s with
  | nil => exact ⟨List.prefix_rfl, List.prefix_rfl⟩
  | cons a all ih =>
      have first := grows_act s a
      have rest := ih (s.act a)
      exact ⟨first.ready.trans rest.ready, first.cycled.trans rest.cycled⟩

theorem count_map_release (targets : List Nat) (j : Nat) :
    (targets.map Action.release).count (.release j) = targets.count j :=
  List.count_map_of_injective _ _ (fun _ _ => Action.release.inj) _

/-- What a node waits for only changes by the arrows to it that are released. -/
theorem getD_actAll (s : Sorting) (all : List Action) (j : Nat) :
    (s.actAll all).waiting.getD j 0 = s.waiting.getD j 0 - all.count (.release j) := by
  induction all generalizing s with
  | nil => rfl
  | cons a all ih =>
      rw [← List.singleton_append, actAll_append, ih, List.count_append, Nat.sub_add_eq]
      congr 1
      cases a with
      | release k => exact count_map_release [k] j ▸ getD_release s k j
      | _ => rfl

end Growing

/-! ## Enough to be released -/

/-- Whether actions release no more arrows than nodes wait for. -/
def Affords (s : Sorting) (all : List Action) : Prop :=
  ∀ j, all.count (.release j) ≤ s.waiting.getD j 0

section Affording

theorem Affords.append {first second : List Action} (h : s.Affords first)
    (h' : (s.actAll first).Affords second) : s.Affords (first ++ second) := by
  intro j
  have hfirst := h j
  have hsecond := h' j
  rw [getD_actAll] at hsecond
  rw [List.count_append]
  omega

/-- An arrow is only released to a node that waits for it. -/
theorem Affords.pos {before all : List Action} {j : Nat} (h : s.Affords all)
    (hbefore : before ++ [.release j] <+: all) : 0 < (s.actAll before).waiting.getD j 0 := by
  have hall := h j
  have hcount := hbefore.sublist.count_le (.release j)
  rw [List.count_append, List.count_singleton_self] at hcount
  rw [getD_actAll]
  omega

theorem Sound.affords_drainActions (wf : arrows.WellFormed) (limit : Nat) (h : s.Sound arrows) :
    s.Affords (drainActions arrows limit s) := by
  induction limit generalizing s with
  | zero => exact fun j => Nat.zero_le _
  | succ limit ih =>
      rw [drainActions]
      cases hnext : s.ready[s.placed]? with
      | none => exact fun j => Nat.zero_le _
      | some i =>
          refine .append (fun j => ?_) ?_
          · rw [List.count_cons_of_ne (by simp), count_map_release]
            exact h.count_next_le wf hnext j
          · rw [actAll_place]
            exact ih (h.place wf hnext)

theorem Stalled.affords_asideActions (wf : arrows.WellFormed) (h : Stalled arrows s) :
    s.Affords (asideActions arrows s (arrows.cycleMembers s.gone)) := by
  intro j
  rw [asideActions, List.count_append, List.count_cons_of_ne (by simp), count_map_release]
  simpa using (h.step wf).enough j

end Affording

/-! ## The whole run -/

section Whole

theorem isSearch_of_mem_drainActions (limit : Nat) (s : Sorting) :
    ∀ a ∈ drainActions arrows limit s, a.isSearch = false := by
  induction limit generalizing s with
  | zero => exact List.forall_mem_nil _
  | succ limit ih =>
      rw [drainActions]
      cases s.ready[s.placed]? with
      | none => exact List.forall_mem_nil _
      | some i =>
          rw [List.forall_mem_append, List.forall_mem_cons, List.forall_mem_map]
          exact ⟨⟨rfl, fun _ _ => rfl⟩, ih _⟩

theorem roundActions_of_complete (limit : Nat) (h : Complete arrows (s.drain arrows arrows.size)) :
    roundActions arrows (limit + 1) s = drainActions arrows arrows.size s := by
  simp only [roundActions, size_add_size, h.all, if_true, List.append_nil]

theorem roundActions_of_stalled (wf : arrows.WellFormed) (limit : Nat)
    (h : Stalled arrows (s.drain arrows arrows.size)) :
    let t := s.drain arrows arrows.size
    roundActions arrows (limit + 1) s = drainActions arrows arrows.size s
      ++ (asideActions arrows t (arrows.cycleMembers t.gone)
        ++ roundActions arrows limit (t.setAside arrows (arrows.cycleMembers t.gone))) := by
  simp only [roundActions, size_add_size, h.rest, if_false]
  split
  · next hnone => exact absurd hnone (h.cycleMembers_ne_nil wf)
  · rfl

/-- A run places all nodes, or it places some, sets the cycles aside and places the others. -/
theorem actions_cases (wf : arrows.WellFormed) :
    let s := (start arrows).drain arrows arrows.size
    Complete arrows s ∧ actions arrows = drainActions arrows arrows.size (start arrows)
      ∨ Stalled arrows s ∧ actions arrows = drainActions arrows arrows.size (start arrows)
        ++ (asideActions arrows s (arrows.cycleMembers s.gone)
          ++ drainActions arrows arrows.size (s.setAside arrows (arrows.cycleMembers s.gone))) := by
  refine (complete_or_stalled_drain wf (sound_start wf)).imp (fun h => ⟨h, ?_⟩) fun h => ⟨h, ?_⟩
  · exact roundActions_of_complete arrows.size h
  · obtain ⟨n, hn⟩ := Nat.exists_eq_add_one.mpr h.pos
    rw [actions, roundActions_of_stalled wf _ h,
      ← roundActions_of_complete n (h.complete_drain wf), ← hn]

theorem affords_actions (wf : arrows.WellFormed) : (start arrows).Affords (actions arrows) := by
  have hstart := (sound_start wf).affords_drainActions wf arrows.size
  obtain ⟨-, hactions⟩ | ⟨h, hactions⟩ := actions_cases wf
  · exact hactions ▸ hstart
  · rw [hactions]
    refine hstart.append ?_
    rw [actAll_drainActions]
    refine (h.affords_asideActions wf).append ?_
    rw [actAll_asideActions]
    exact ((h.step wf).sound wf h.sound).affords_drainActions wf arrows.size

/-- Cycles are looked for once at most, and then there are some. -/
theorem search_cases (wf : arrows.WellFormed) :
    (∀ a ∈ actions arrows, a.isSearch = false)
      ∨ ∃ before found after, actions arrows = before ++ .search found :: after
        ∧ found = arrows.cycleMembers ((start arrows).actAll before).gone ∧ found ≠ []
        ∧ ∀ a ∈ before ++ after, a.isSearch = false := by
  obtain ⟨-, hactions⟩ | ⟨h, hactions⟩ := actions_cases wf
  · exact .inl (hactions ▸ isSearch_of_mem_drainActions _ _)
  · rw [asideActions, List.append_assoc, List.cons_append] at hactions
    refine .inr ⟨_, _, _, hactions, ?_, h.cycleMembers_ne_nil wf, ?_⟩
    · rw [actAll_drainActions]
    · simp only [List.forall_mem_append, List.forall_mem_map, List.forall_mem_singleton]
      exact ⟨isSearch_of_mem_drainActions _ _, fun _ _ => rfl, rfl,
        isSearch_of_mem_drainActions _ _⟩

/-- At the end nothing that is ready has yet to be placed. -/
theorem placed_run (wf : arrows.WellFormed) :
    (run arrows).placed = (run arrows).ready.toList.length := by
  obtain ⟨-, hrun⟩ | ⟨h, hrun⟩ := run_cases wf
  · rw [hrun]
    exact (sound_drain wf arrows.size (sound_start wf)).2.2 (Nat.le_add_left _ _)
  · rw [hrun]
    exact (sound_drain wf arrows.size ((h.step wf).sound wf h.sound)).2.2 (Nat.le_add_left _ _)

end Whole

end Recalc.Sorting

namespace Recalc.Graph

open Sorting

variable {α : Type} [Ord α]

/-- In every graph that can be built, the counts of the sort are safe. Its actions make up the run.
An arrow is released only to a node that waits for one; in every state on the way no node has become
ready twice, and each node that has been set aside waits for more and never becomes ready. Cycles
are looked for at most once, and then there are some, so the sort ends with every node placed or
set aside. -/
theorem sort_built_safe [Std.TransOrd α] [Std.LawfulEqOrd α] (changes : List (GraphChange α)) :
    let arrows := (built changes).arrows
    let all := actions arrows
    let reached := (start arrows).actAll
    reached all = run arrows
      ∧ (∀ before j, before ++ [.release j] <+: all → 0 < (reached before).waiting.getD j 0)
      ∧ (∀ before, before <+: all →
          (reached before).ready.toList <+: (run arrows).ready.toList
            ∧ (reached before).ready.toList.Nodup
            ∧ ∀ j ∈ (reached before).cycled.toList,
              0 < (reached before).waiting.getD j 0 ∧ j ∉ (run arrows).ready.toList)
      ∧ ((∀ a ∈ all, a.isSearch = false)
        ∨ ∃ before found after, all = before ++ .search found :: after
          ∧ found = arrows.cycleMembers (reached before).gone ∧ found ≠ []
          ∧ ∀ a ∈ before ++ after, a.isSearch = false)
      ∧ (run arrows).placed = (run arrows).ready.toList.length
      ∧ ((run arrows).ready.toList ++ (run arrows).cycled.toList).Perm
        (List.range arrows.size) := by
  intro arrows all reached
  have wf : arrows.WellFormed := (wellFormed_built changes).arrows
  have complete := complete_run wf
  refine ⟨actAll_actions arrows, fun before j => (affords_actions wf).pos, ?_, search_cases wf,
    placed_run wf, complete.perm⟩
  rintro before ⟨after, hall⟩
  have hrun : (reached before).actAll after = run arrows := by
    rw [← actAll_append, hall, actAll_actions]
  have grows := hrun ▸ grows_actAll (reached before) after
  refine ⟨grows.ready, ?_, fun j hj => ?_⟩
  · exact (List.nodup_append.mp complete.sound.nodup).1.sublist grows.ready.sublist
  · have hj' := grows.cycled.subset hj
    have hkept := complete.sound.kept j hj'
    have hleft := getD_actAll (reached before) after j
    rw [hrun] at hleft
    exact ⟨by omega, fun hready => complete.sound.not_cycled_of_ready hready hj'⟩

/-- The node between two cycles counts down a node that has been set aside. -/
theorem sort_built_safe_betweenCycles :
    ∃ before, before ++ [.release 4] <+: actions (built twoCycles).arrows
      ∧ 4 ∈ ((start (built twoCycles).arrows).actAll before).cycled.toList
      ∧ 0 < ((start (built twoCycles).arrows).actAll before).waiting.getD 4 0
      ∧ 4 ∉ (run (built twoCycles).arrows).ready.toList := by
  obtain ⟨before, hbefore, hcycled⟩ :
      ∃ before, before ++ [.release 4] <+: actions (built twoCycles).arrows
        ∧ 4 ∈ ((start (built twoCycles).arrows).actAll before).cycled.toList :=
    ⟨[.take 0, .release 1, .search [1, 2, 4, 5], .release 3, .release 6, .keep [1, 2, 4, 5],
      .take 3], by decide +kernel, by decide +kernel⟩
  have safe := sort_built_safe twoCycles
  have kept := safe.2.2.1 before ((List.prefix_append _ _).trans hbefore)
  exact ⟨before, hbefore, hcycled, safe.2.1 before 4 hbefore, (kept.2.2 4 hcycled).2⟩

end Recalc.Graph
