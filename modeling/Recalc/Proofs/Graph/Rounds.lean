import Mathlib.Data.Fintype.EquivFin
import Mathlib.Order.WellFounded
import Recalc.Proofs.Graph.Components
import Recalc.Proofs.Graph.Sorting

/-!
# The sort as a run

Placing goes on until nothing is ready any more. If nodes are left then, so is a cycle, and the
cycles left are all cycles; after they have been set aside nothing stops the sort again.
-/

namespace Recalc.Sorting

open Relation

variable {arrows : Arrows} {s t : Sorting}

section Start

theorem toList_ready_start (arrows : Arrows) : (start arrows).ready.toList
    = (List.range arrows.size).filter fun i => (arrowsInto arrows).getD i 0 == 0 := by
  simp [start]

theorem getD_waiting_start (wf : arrows.WellFormed) (j : Nat) :
    (start arrows).waiting.getD j 0 = (arrows.sources (start arrows).gone j).card := by
  by_cases hj : j < arrows.size
  · exact getD_arrowsInto wf hj
  · have hsize := size_arrowsInto arrows
    have hnone : arrows.sources (start arrows).gone j = ∅ := by
      ext i
      rw [Arrows.mem_sources]
      exact iff_of_false (fun hi => hj (wf.bounded hi.2)) (by simp)
    rw [hnone, Finset.card_empty]
    simp only [start, Array.getD_eq_getD_getElem?]
    rw [Array.getElem?_eq_none (by omega), Option.getD_none]

/-- No arrow goes to a node that is ready at the start. -/
theorem not_leads_of_ready_start (wf : arrows.WellFormed) {j : Nat}
    (hj : j ∈ (start arrows).ready.toList) (i : Nat) : ¬ arrows.Leads i j := by
  intro hij
  rw [toList_ready_start, List.mem_filter] at hj
  have hcard : (arrows.sources (start arrows).gone j).card = 0 :=
    (getD_waiting_start wf j).symm.trans (beq_iff_eq.mp hj.2)
  have hgone := Arrows.gone_of_card_sources_eq_zero hcard hij
  simp [start] at hgone

theorem sound_start (wf : arrows.WellFormed) : (start arrows).Sound arrows := by
  refine
    { waiting_size := size_arrowsInto arrows
      gone_size := Marks.size_none _
      placed_le := Nat.zero_le _
      bounded := ?_
      nodup := ?_
      gone := by simp [start]
      waiting := fun j _ => getD_waiting_start wf j
      kept := by simp [start]
      ready := ?_
      ordered := fun i j hij hj => absurd hij (not_leads_of_ready_start wf hj i)
      acyclic := ?_
      onCycle := by simp [start]
      allCycles := Or.inl rfl }
  · intro i hi
    rw [toList_ready_start] at hi
    rcases List.mem_append.mp hi with hi | hi
    · exact List.mem_range.mp (List.mem_of_mem_filter hi)
    · simp [start] at hi
  · rw [toList_ready_start]
    simpa [start] using List.nodup_range.filter _
  · intro j hj _
    rw [toList_ready_start]
    simp [start, hj]
  · intro j hj hcycle
    obtain ⟨i, hij, -⟩ := exists_previous_on_cycle hcycle
    exact not_leads_of_ready_start wf hj i hij

end Start

section Placing

variable {i : Nat} (wf : arrows.WellFormed) (h : s.Sound arrows) (hi : s.ready[s.placed]? = some i)
include hi

theorem take_next :
    s.ready.toList.take (s.placed + 1) = s.ready.toList.take s.placed ++ [i] := by
  rw [List.take_add_one, Array.getElem?_toList, hi, Option.toList_some]

include h

theorem Sound.lt_size_of_next : i < arrows.size := by
  have hmem : i ∈ s.ready.toList := Array.mem_toList_iff.mpr (Array.mem_of_getElem? hi)
  exact h.bounded i (List.mem_append_left _ hmem)

theorem Sound.left_of_next : s.gone.has i = false := by
  have hmem : i ∈ s.ready.toList := Array.mem_toList_iff.mpr (Array.mem_of_getElem? hi)
  have hnodup : (s.ready.toList.take (s.placed + 1)).Nodup :=
    (List.nodup_append.mp h.nodup).1.sublist (List.take_sublist _ _)
  rw [take_next hi, List.nodup_append] at hnodup
  apply Bool.eq_false_iff.mpr
  intro hgone
  rcases (h.gone i).mp hgone with hearly | haside
  · exact hnodup.2.2 i hearly i (List.mem_singleton_self i) rfl
  · exact h.not_cycled_of_ready hmem haside

theorem Sound.has_add_next_iff (k : Nat) :
    (s.gone.add i).has k = true ↔ s.gone.has k = true ∨ k ∈ [i] := by
  rw [Marks.has_add_iff, List.mem_singleton]
  have hlt : i < s.gone.size := h.gone_size ▸ h.lt_size_of_next hi
  exact or_congr_right ⟨fun hk => hk.1.symm, fun hk => ⟨hk.symm, hlt⟩⟩

include wf

theorem Sound.card_sources_next (j : Nat) :
    (arrows.sources (s.gone.add i) j).card + (arrows.next i).count j
      = (arrows.sources s.gone j).card := by
  have hleft : ∀ k ∈ [i], s.gone.has k = false := by
    intro k hk
    exact List.mem_singleton.mp hk ▸ h.left_of_next hi
  have hcard := Arrows.card_sources_add_count wf (List.nodup_singleton i) hleft
    (h.has_add_next_iff hi) j
  simpa using hcard

theorem Sound.count_next_le (j : Nat) : (arrows.next i).count j ≤ s.waiting.getD j 0 := by
  have hsources := h.card_sources_next wf hi j
  have hwaiting := h.card_le_waiting j
  omega

theorem Sound.released_place : Released (arrows.next i)
    { s with gone := s.gone.add i, placed := s.placed + 1 } (s.place arrows i) :=
  foldl_release (arrows.next i) _ fun j => h.count_next_le wf hi j

/-- Placing the next ready node is a step. -/
theorem Sound.step_place : Step arrows [i] [] (arrows.next i) s (s.place arrows i) := by
  have released := h.released_place wf hi
  have hcycled : (s.place arrows i).cycled = s.cycled := released.cycled
  have hlt : s.placed < s.ready.toList.length := by
    rw [Array.length_toList]
    exact (Array.getElem?_eq_some_iff.mp hi).1
  refine
    { nodup := List.nodup_singleton i
      left := fun k hk => List.mem_singleton.mp hk ▸ h.left_of_next hi
      gone_size := by rw [released.gone, Marks.size_add]
      gone := fun k => by rw [released.gone]; exact h.has_add_next_iff hi k
      dealt := fun k => ?_
      placed_le := by rw [released.placed]; exact hlt
      cycled := by rw [hcycled, List.append_nil]
      aside_nodup := List.nodup_nil
      aside_left := by simp
      onCycle := by simp
      allCycles := by rw [hcycled]; exact h.allCycles
      waiting_size := released.size
      waiting := released.waiting
      enough := h.count_next_le wf hi
      count := fun j _ => by simp
      kept := fun j hj => ?_
      ready := released.ready }
  · obtain ⟨fresh, hready, -⟩ := released.ready
    rw [released.gone, released.placed, hcycled, hready,
      List.take_append_of_le_length (Nat.succ_le_of_lt hlt), take_next hi, List.mem_append,
      h.has_add_next_iff hi k, h.gone k]
    exact or_right_comm
  · rw [hcycled] at hj
    have hkept := h.kept j hj
    have hsources := h.card_sources_next wf hi j
    rw [released.gone, released.waiting j]
    change (arrows.sources (s.gone.add i) j).card < s.waiting.getD j 0 - _
    omega

theorem Sound.place : (s.place arrows i).Sound arrows := (h.step_place wf hi).sound wf h

end Placing

/-- Placing goes on until nothing is ready, if it may place every node. -/
theorem sound_drain (wf : arrows.WellFormed) (limit : Nat) (h : s.Sound arrows) :
    (s.drain arrows limit).Sound arrows ∧ (s.drain arrows limit).cycled = s.cycled
      ∧ (arrows.size ≤ s.placed + limit →
        (s.drain arrows limit).placed = (s.drain arrows limit).ready.toList.length) := by
  induction limit generalizing s with
  | zero =>
      refine ⟨h, rfl, fun hsize => ?_⟩
      have hle := h.length_le
      rw [List.length_append] at hle
      have := h.placed_le
      simp only [drain]
      omega
  | succ limit ih =>
      cases hnext : s.ready[s.placed]? with
      | none =>
          have hsame : s.drain arrows (limit + 1) = s := by simp only [drain, hnext]
          rw [hsame]
          refine ⟨h, rfl, fun _ => ?_⟩
          have hle : s.ready.size ≤ s.placed := Array.getElem?_eq_none_iff.mp hnext
          rw [← Array.length_toList] at hle
          exact Nat.le_antisymm h.placed_le hle
      | some i =>
          simp only [drain, hnext]
          have released := h.released_place wf hnext
          obtain ⟨hsound, hcycled, hdone⟩ := ih (h.place wf hnext)
          refine ⟨hsound, hcycled.trans released.cycled, fun hsize => hdone ?_⟩
          rw [released.placed]
          change arrows.size ≤ s.placed + 1 + limit
          omega

/-! ## Setting cycles aside -/

/-- Where every member of a finite set of nodes is led to by a member, there is a cycle. -/
theorem exists_cycle_of_sources {arrow : Nat → Nat → Prop} {nodes : Finset Nat}
    (hne : nodes.Nonempty) (h : ∀ j ∈ nodes, ∃ i ∈ nodes, arrow i j) :
    ∃ i, TransGen arrow i i := by
  by_contra hnone
  let before : nodes → nodes → Prop := fun i j => TransGen arrow i j
  have : IsTrans nodes before := ⟨fun _ _ _ => TransGen.trans⟩
  have : Std.Irrefl before := ⟨fun i hi => hnone ⟨i, hi⟩⟩
  obtain ⟨first, hfirst⟩ := hne
  obtain ⟨m, -, hm⟩ := (Finite.wellFounded_of_trans_of_irrefl before).has_min Set.univ
    ⟨⟨first, hfirst⟩, trivial⟩
  obtain ⟨i, hi, him⟩ := h m m.2
  exact hm ⟨i, hi⟩ trivial (TransGen.single him)

/-- When nothing is ready and not all nodes are dealt with, a cycle is left. -/
theorem Sound.exists_cyclic (h : s.Sound arrows) (hplaced : s.placed = s.ready.toList.length)
    (hrest : (s.ready.toList ++ s.cycled.toList).length ≠ arrows.size) :
    ∃ i, arrows.Cyclic s.gone i := by
  have hgone : ∀ i, s.gone.has i = true ↔ i ∈ s.ready.toList ++ s.cycled.toList := by
    intro i
    rw [h.gone i, hplaced, List.take_length, List.mem_append]
  have hne : s.gone.absent.Nonempty := by
    by_contra hnone
    have hall : List.range arrows.size ⊆ s.ready.toList ++ s.cycled.toList := by
      intro i hi
      by_contra hi'
      have hleft := Bool.eq_false_iff.mpr fun h' => hi' ((hgone i).mp h')
      exact hnone ⟨i, Marks.mem_absent.mpr ⟨h.gone_size ▸ List.mem_range.mp hi, hleft⟩⟩
    have hle := (List.subperm_of_subset List.nodup_range hall).length_le
    rw [List.length_range] at hle
    exact hrest (Nat.le_antisymm h.length_le hle)
  apply exists_cycle_of_sources hne
  intro j hj
  obtain ⟨hlt, hleft⟩ := Marks.mem_absent.mp hj
  have hj' : j ∉ s.ready.toList ++ s.cycled.toList := fun h' =>
    Bool.eq_false_iff.mp hleft ((hgone j).mpr h')
  rw [List.mem_append, not_or] at hj'
  have hwaiting := mt (h.ready j (h.gone_size ▸ hlt) hj'.2).mpr hj'.1
  rw [h.waiting j hj'.2] at hwaiting
  obtain ⟨i, hi⟩ := Finset.card_pos.mp (Nat.pos_of_ne_zero hwaiting)
  obtain ⟨hi', hij⟩ := Arrows.mem_sources.mp hi
  have hlt' : i < s.gone.size := h.gone_size ▸ Arrows.lt_size_of_mem_next hij
  exact ⟨i, Marks.mem_absent.mpr ⟨hlt', hi'⟩, hi', hleft, hij⟩

theorem onCycle_of_cyclic {gone : Marks} {i : Nat} (h : arrows.Cyclic gone i) :
    arrows.OnCycle i := h.lift id fun _ _ hij => hij.2.2

/-- After cycles have been set aside, the sort does not get stuck again. -/
theorem Sound.complete_of_cycled (h : s.Sound arrows)
    (hplaced : s.placed = s.ready.toList.length) (hne : s.cycled.toList ≠ []) :
    (s.ready.toList ++ s.cycled.toList).length = arrows.size := by
  by_contra hrest
  obtain ⟨i, hi⟩ := h.exists_cyclic hplaced hrest
  have hcycled := h.allCycles.resolve_left hne i (onCycle_of_cyclic hi)
  obtain ⟨j, hij, -⟩ := TransGen.head'_iff.mp hi
  exact Bool.eq_false_iff.mp hij.1 ((h.gone i).mpr (Or.inr hcycled))

/-- As long as none is set aside, every node on a cycle is left, with its cycle. -/
theorem Sound.cyclic_of_onCycle (h : s.Sound arrows) (hnone : s.cycled.toList = []) {i : Nat}
    (hi : arrows.OnCycle i) : arrows.Cyclic s.gone i := by
  have hleft : ∀ k, arrows.OnCycle k → s.gone.has k = false := by
    intro k hk
    apply Bool.eq_false_iff.mpr
    intro hgone
    rcases (h.gone k).mp hgone with hk' | hk'
    · exact h.acyclic k (List.mem_of_mem_take hk') hk
    · rw [hnone] at hk'
      cases hk'
  have hpath : ∀ k, TransGen arrows.Leads i k → ReflTransGen arrows.Leads k i →
      TransGen (arrows.Live s.gone) i k := by
    intro k there
    induction there with
    | @single k hik =>
        intro back
        exact TransGen.single ⟨hleft i hi, hleft k (TransGen.tail' back hik), hik⟩
    | @tail k l hik hkl ih =>
        intro back
        have hk : arrows.OnCycle k := (TransGen.head' hkl back).trans hik
        have hl : arrows.OnCycle l := (TransGen.trans_right back hik).tail hkl
        exact (ih (ReflTransGen.head hkl back)).tail ⟨hleft k hk, hleft l hl, hkl⟩
  exact hpath i hi ReflTransGen.refl

theorem gone_foldl_release (targets : List Nat) (s : Sorting) :
    (targets.foldl release s).gone = s.gone := by
  induction targets generalizing s with
  | nil => rfl
  | cons j rest ih => exact ih (s.release j)

theorem foldl_release_unless_gone (targets : List Nat) (s : Sorting) :
    targets.foldl (fun s j => if s.gone.has j then s else s.release j) s
      = (targets.filter fun j => !s.gone.has j).foldl release s := by
  induction targets generalizing s with
  | nil => rfl
  | cons j rest ih =>
      have hgone : (s.release j).gone = s.gone := rfl
      by_cases hj : s.gone.has j = true
      · simp [hj, ih s]
      · simp [hj, ih (s.release j), hgone]

/-- Releasing what the nodes set aside lead to, as one release after the other. -/
theorem foldl_releaseFrom (members : List Nat) (s : Sorting) :
    members.foldl (releaseFrom arrows) s = (members.flatMap fun i =>
      (arrows.next i).filter fun j => !s.gone.has j).foldl release s := by
  induction members generalizing s with
  | nil => rfl
  | cons i rest ih =>
      rw [List.foldl_cons, releaseFrom, foldl_release_unless_gone, ih, gone_foldl_release,
        List.flatMap_cons, List.foldl_append]

/-- The ends of the arrows from some nodes to those that are left. -/
def targetsLeft (arrows : Arrows) (gone : Marks) (members : List Nat) : List Nat :=
  members.flatMap fun i => (arrows.next i).filter fun j => !gone.has j

theorem count_targetsLeft (arrows : Arrows) (members : List Nat) (gone : Marks) (j : Nat) :
    (targetsLeft arrows gone members).count j
      = if gone.has j = true then 0 else (members.flatMap arrows.next).count j := by
  induction members with
  | nil => simp [targetsLeft]
  | cons i rest ih =>
      rw [targetsLeft] at ih
      rw [targetsLeft, List.flatMap_cons, List.count_append, ih, List.flatMap_cons,
        List.count_append]
      by_cases hj : gone.has j = true
      · simp [hj, List.count_eq_zero]
      · have hkeep : (fun k => !gone.has k) j = true := by simpa using hj
        rw [List.count_filter (p := fun k => !gone.has k) hkeep, if_neg hj, if_neg hj]

section SettingAside

variable {members : List Nat} (wf : arrows.WellFormed) (h : s.Sound arrows)
  (hmem : ∀ i, i ∈ members ↔ arrows.Cyclic s.gone i) (hnodup : members.Nodup)
include h hmem

theorem Sound.has_addAll_iff (i : Nat) :
    (s.gone.addAll members).has i = true ↔ s.gone.has i = true ∨ i ∈ members := by
  rw [Marks.has_addAll_iff]
  exact or_congr_right (and_iff_left_of_imp fun hi => h.gone_size ▸ ((hmem i).mp hi).lt_size)

include wf hnodup

theorem Sound.card_sources_aside (j : Nat) :
    (arrows.sources (s.gone.addAll members) j).card + (members.flatMap arrows.next).count j
      = (arrows.sources s.gone j).card :=
  Arrows.card_sources_add_count wf hnodup (fun i hi => ((hmem i).mp hi).left)
    (h.has_addAll_iff hmem) j

theorem Sound.count_aside_le (j : Nat) :
    (targetsLeft arrows (s.gone.addAll members) members).count j ≤ s.waiting.getD j 0 := by
  have hsources := h.card_sources_aside wf hmem hnodup j
  have hwaiting := h.card_le_waiting j
  rw [count_targetsLeft]
  split <;> omega

theorem Sound.released_setAside :
    Released (targetsLeft arrows (s.gone.addAll members) members)
      { s with gone := s.gone.addAll members }
      (members.foldl (releaseFrom arrows) { s with gone := s.gone.addAll members }) := by
  rw [foldl_releaseFrom]
  exact foldl_release _ _ fun j => h.count_aside_le wf hmem hnodup j

section NothingReady

variable (hplaced : s.placed = s.ready.toList.length) (hnone : s.cycled.toList = [])
include hnone

omit wf hmem hnodup in
theorem Sound.waiting_eq_card (j : Nat) :
    s.waiting.getD j 0 = (arrows.sources s.gone j).card :=
  h.waiting j (by simp [hnone])

/-- A node on a cycle has a source on it, to which no arrow is released. -/
theorem Sound.card_aside_lt {j : Nat} (hj : j ∈ members) :
    (arrows.sources (s.gone.addAll members) j).card < s.waiting.getD j 0 := by
  obtain ⟨i, hij, hi⟩ := exists_previous_on_cycle ((hmem j).mp hj)
  have hpos : 0 < (members.flatMap arrows.next).count j :=
    List.count_pos_iff.mpr (List.mem_flatMap.mpr ⟨i, (hmem i).mpr hi, hij.2.2⟩)
  have hsources := h.card_sources_aside wf hmem hnodup j
  have hwaiting := h.waiting_eq_card hnone j
  omega

include hplaced

omit wf hmem hnodup in
theorem Sound.has_iff_mem_ready (i : Nat) : s.gone.has i = true ↔ i ∈ s.ready.toList := by
  rw [h.gone i, hplaced, List.take_length, hnone]
  simp

/-- No arrow that is left out goes to a node off the cycles. -/
theorem Sound.count_aside_eq {j : Nat} (hj : j ∉ members) :
    (targetsLeft arrows (s.gone.addAll members) members).count j
      = (members.flatMap arrows.next).count j := by
  rw [count_targetsLeft]
  split
  case isFalse => rfl
  case isTrue hgone =>
    have hready := (h.has_iff_mem_ready hplaced hnone j).mp
      (((h.has_addAll_iff hmem j).mp hgone).resolve_right hj)
    have hsources := h.card_sources_aside wf hmem hnodup j
    have hwaiting := h.waiting_eq_card hnone j
    have hzero := h.waiting_eq_zero hready
    omega

/-- Setting the cycles aside is a step, once nothing is ready any more. -/
theorem Sound.step_setAside :
    Step arrows members members (targetsLeft arrows (s.gone.addAll members) members) s
      (s.setAside arrows members) := by
  have released := h.released_setAside wf hmem hnodup
  have hmore := h.has_addAll_iff hmem
  have hgone := h.has_iff_mem_ready hplaced hnone
  have hcycled : (s.setAside arrows members).cycled.toList = members := by
    simp only [setAside, released.cycled, Array.toList_append, hnone, List.nil_append]
  refine
    { nodup := hnodup
      left := fun i hi => ((hmem i).mp hi).left
      gone_size := by simp only [setAside, released.gone, Marks.size_addAll]
      gone := fun i => by simp only [setAside, released.gone]; exact hmore i
      dealt := fun i => ?_
      placed_le := released.placed.trans_le h.placed_le
      cycled := by rw [hcycled, hnone, List.nil_append]
      aside_nodup := hnodup
      aside_left := fun i hi => ⟨hi, fun hi' =>
        Bool.eq_false_iff.mp ((hmem i).mp hi).left ((hgone i).mpr hi')⟩
      onCycle := fun i hi => onCycle_of_cyclic ((hmem i).mp hi)
      allCycles := Or.inr fun i hi => by
        rw [hcycled, hmem i]
        exact h.cyclic_of_onCycle hnone hi
      waiting_size := released.size
      waiting := released.waiting
      enough := h.count_aside_le wf hmem hnodup
      count := fun j hj => h.count_aside_eq wf hmem hnodup hplaced hnone (hcycled ▸ hj)
      kept := fun j hj => ?_
      ready := released.ready }
  · obtain ⟨fresh, hready, -⟩ := released.ready
    have htake : (s.setAside arrows members).ready.toList.take (s.setAside arrows members).placed
        = s.ready.toList := by
      simp only [setAside]
      rw [hready, released.placed, hplaced, List.take_left]
    rw [htake, hcycled]
    simp only [setAside, released.gone]
    rw [hmore i, hgone i]
  · rw [hcycled] at hj
    have hlt := h.card_aside_lt wf hmem hnodup hnone hj
    have hzero : (targetsLeft arrows (s.gone.addAll members) members).count j = 0 := by
      rw [count_targetsLeft, if_pos ((hmore j).mpr (Or.inr hj))]
    simpa only [setAside, released.gone, released.waiting j, hzero, Nat.sub_zero] using hlt

end NothingReady

end SettingAside

/-! ## The whole run -/

/-- The sort has dealt with every node. -/
structure Complete (arrows : Arrows) (s : Sorting) : Prop where
  sound : s.Sound arrows
  all : (s.ready.toList ++ s.cycled.toList).length = arrows.size

theorem size_add_size (s : Sorting) :
    s.ready.size + s.cycled.size = (s.ready.toList ++ s.cycled.toList).length := by simp

/-- Nothing is ready any more, but nodes are left. -/
structure Stalled (arrows : Arrows) (s : Sorting) : Prop where
  sound : s.Sound arrows
  placed : s.placed = s.ready.toList.length
  rest : (s.ready.toList ++ s.cycled.toList).length ≠ arrows.size

namespace Stalled

variable (h : Stalled arrows s)
include h

/-- The sort does not stall after cycles have been set aside. -/
theorem none_aside : s.cycled.toList = [] := by
  by_contra hne
  exact h.rest (h.sound.complete_of_cycled h.placed hne)

theorem pos : 0 < arrows.size := by
  by_contra hzero
  exact h.rest (Nat.le_antisymm h.sound.length_le (by omega))

variable (wf : arrows.WellFormed)
include wf

theorem cycleMembers_ne_nil : arrows.cycleMembers s.gone ≠ [] := by
  obtain ⟨i, hi⟩ := h.sound.exists_cyclic h.placed h.rest
  exact List.ne_nil_of_mem ((Arrows.mem_cycleMembers wf _ i).mpr hi)

/-- Setting aside the nodes on cycles is a step. -/
theorem step : Step arrows (arrows.cycleMembers s.gone) (arrows.cycleMembers s.gone)
    (targetsLeft arrows (s.gone.addAll (arrows.cycleMembers s.gone)) (arrows.cycleMembers s.gone))
    s (s.setAside arrows (arrows.cycleMembers s.gone)) :=
  h.sound.step_setAside wf (Arrows.mem_cycleMembers wf _) (Arrows.nodup_cycleMembers wf _)
    h.placed h.none_aside

/-- Once the cycles have been set aside, placing deals with every node. -/
theorem complete_drain : Complete arrows
    ((s.setAside arrows (arrows.cycleMembers s.gone)).drain arrows arrows.size) := by
  have step := h.step wf
  obtain ⟨sound, hcycled, hplaced⟩ := sound_drain wf arrows.size (step.sound wf h.sound)
  refine ⟨sound, sound.complete_of_cycled (hplaced (Nat.le_add_left _ _)) ?_⟩
  rw [hcycled, step.cycled, h.none_aside, List.nil_append]
  exact h.cycleMembers_ne_nil wf

end Stalled

theorem complete_or_stalled_drain (wf : arrows.WellFormed) (h : s.Sound arrows) :
    Complete arrows (s.drain arrows arrows.size) ∨ Stalled arrows (s.drain arrows arrows.size) := by
  obtain ⟨sound, -, hplaced⟩ := sound_drain wf arrows.size h
  by_cases hall : ((s.drain arrows arrows.size).ready.toList
      ++ (s.drain arrows arrows.size).cycled.toList).length = arrows.size
  · exact .inl ⟨sound, hall⟩
  · exact .inr ⟨sound, hplaced (Nat.le_add_left _ _), hall⟩

theorem rounds_of_complete (limit : Nat) (h : Complete arrows (s.drain arrows arrows.size)) :
    s.rounds arrows (limit + 1) = s.drain arrows arrows.size := by
  simp only [rounds, size_add_size, h.all, if_true]

theorem rounds_of_stalled (wf : arrows.WellFormed) (limit : Nat)
    (h : Stalled arrows (s.drain arrows arrows.size)) :
    s.rounds arrows (limit + 1) = ((s.drain arrows arrows.size).setAside arrows
      (arrows.cycleMembers (s.drain arrows arrows.size).gone)).rounds arrows limit := by
  simp only [rounds, size_add_size, h.rest, if_false]
  split
  · next hnone => exact absurd hnone (h.cycleMembers_ne_nil wf)
  · rfl

/-- A run places all nodes, or stalls once, sets the cycles aside and places the others. -/
theorem run_cases (wf : arrows.WellFormed) :
    let s := (start arrows).drain arrows arrows.size
    Complete arrows s ∧ run arrows = s ∨ Stalled arrows s ∧
      run arrows = (s.setAside arrows (arrows.cycleMembers s.gone)).drain arrows arrows.size := by
  refine (complete_or_stalled_drain wf (sound_start wf)).imp (fun h => ⟨h, ?_⟩) fun h => ⟨h, ?_⟩
  · exact rounds_of_complete arrows.size h
  · obtain ⟨n, hn⟩ : ∃ n, arrows.size = n + 1 := ⟨arrows.size - 1, by have := h.pos; omega⟩
    rw [run, rounds_of_stalled wf _ h]
    exact (congrArg (rounds arrows · _) hn).trans (rounds_of_complete n (h.complete_drain wf))

/-- The sort ends with every node placed or set aside. -/
theorem complete_run (wf : arrows.WellFormed) : Complete arrows (run arrows) := by
  obtain ⟨h, hrun⟩ | ⟨h, hrun⟩ := run_cases wf
  · exact hrun ▸ h
  · exact hrun ▸ h.complete_drain wf

namespace Complete

variable (h : Complete arrows s)
include h

theorem perm : (s.ready.toList ++ s.cycled.toList).Perm (List.range arrows.size) := by
  have hsub : s.ready.toList ++ s.cycled.toList ⊆ List.range arrows.size := fun i hi =>
    List.mem_range.mpr (h.sound.bounded i hi)
  exact (List.subperm_of_subset h.sound.nodup hsub).perm_of_length_le
    (by rw [h.all, List.length_range])

/-- Exactly the nodes on cycles have been set aside. -/
theorem mem_cycled_iff (i : Nat) : i ∈ s.cycled.toList ↔ arrows.OnCycle i := by
  refine ⟨h.sound.onCycle i, fun hi => ?_⟩
  obtain ⟨j, hij, -⟩ := TransGen.head'_iff.mp hi
  have hmem := h.perm.mem_iff.mpr (List.mem_range.mpr (Arrows.lt_size_of_mem_next hij))
  rcases List.mem_append.mp hmem with hready | hcycled
  · exact absurd hi (h.sound.acyclic i hready)
  · exact hcycled

/-- A node that leads to a placed node has been placed before it or set aside. -/
theorem before {i j : Nat} (hij : arrows.Leads i j) (hi : i ∈ s.ready.toList)
    (hj : j ∈ s.ready.toList) : [i, j].Sublist s.ready.toList :=
  (h.sound.ordered i j hij hj).resolve_left (h.sound.not_cycled_of_ready hi)

theorem mem_cycledInOrder_iff (i : Nat) : i ∈ s.cycledInOrder ↔ arrows.OnCycle i := by
  rw [← h.mem_cycled_iff i]
  simp only [cycledInOrder, List.mem_filter, List.mem_range, Marks.has_addAll_iff, Marks.size_none,
    Marks.has_none, Bool.false_eq_true, false_or]
  constructor
  · intro hi
    exact hi.2.1
  · intro hi
    have hlt : i < s.gone.size :=
      h.sound.gone_size ▸ h.sound.bounded i (List.mem_append_right _ hi)
    exact ⟨hlt, hi, hlt⟩

theorem cycledInOrder_perm : s.cycledInOrder.Perm s.cycled.toList := by
  have hnodup : s.cycledInOrder.Nodup := List.nodup_range.filter _
  refine (List.perm_ext_iff_of_nodup hnodup (List.nodup_append.mp h.sound.nodup).2.1).mpr
    fun i => ?_
  rw [h.mem_cycledInOrder_iff, h.mem_cycled_iff]

end Complete

end Recalc.Sorting
