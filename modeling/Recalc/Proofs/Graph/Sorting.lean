import Recalc.Proofs.Graph.Waiting

/-!
# The invariant of a sort

While a sort runs, a node that has not been set aside waits for exactly its sources that are left,
and a node that has been set aside waits for more, so it never becomes ready. Nodes become ready
behind all that they read, hence never on a cycle. Placing a node and setting the cycles aside are
steps of one kind, and every such step keeps this.
-/

namespace Recalc.Sorting

open Relation

/-- The invariant of a sort. -/
structure Sound (arrows : Arrows) (s : Sorting) : Prop where
  waiting_size : s.waiting.size = arrows.size
  gone_size : s.gone.size = arrows.size
  placed_le : s.placed ≤ s.ready.toList.length
  bounded : ∀ i ∈ s.ready.toList ++ s.cycled.toList, i < arrows.size
  nodup : (s.ready.toList ++ s.cycled.toList).Nodup
  gone : ∀ i, s.gone.has i = true ↔ i ∈ s.ready.toList.take s.placed ∨ i ∈ s.cycled.toList
  waiting : ∀ j, j ∉ s.cycled.toList → s.waiting.getD j 0 = (arrows.sources s.gone j).card
  kept : ∀ j ∈ s.cycled.toList, (arrows.sources s.gone j).card < s.waiting.getD j 0
  ready : ∀ j < arrows.size, j ∉ s.cycled.toList →
    (j ∈ s.ready.toList ↔ s.waiting.getD j 0 = 0)
  ordered : ∀ i j, arrows.Leads i j → j ∈ s.ready.toList →
    i ∈ s.cycled.toList ∨ [i, j].Sublist s.ready.toList
  acyclic : ∀ i ∈ s.ready.toList, ¬ arrows.OnCycle i
  onCycle : ∀ i ∈ s.cycled.toList, arrows.OnCycle i
  allCycles : s.cycled.toList = [] ∨ ∀ i, arrows.OnCycle i → i ∈ s.cycled.toList

variable {arrows : Arrows} {s t : Sorting} {leaving aside targets : List Nat}

theorem Sound.not_cycled_of_ready (h : s.Sound arrows) {i : Nat} (hi : i ∈ s.ready.toList) :
    i ∉ s.cycled.toList := fun hi' => (List.nodup_append.mp h.nodup).2.2 i hi i hi' rfl

theorem Sound.waiting_eq_zero (h : s.Sound arrows) {i : Nat} (hi : i ∈ s.ready.toList) :
    s.waiting.getD i 0 = 0 :=
  (h.ready i (h.bounded i (List.mem_append_left _ hi)) (h.not_cycled_of_ready hi)).mp hi

theorem Sound.length_le (h : s.Sound arrows) :
    (s.ready.toList ++ s.cycled.toList).length ≤ arrows.size := by
  have hsub : s.ready.toList ++ s.cycled.toList ⊆ List.range arrows.size := fun i hi =>
    List.mem_range.mpr (h.bounded i hi)
  have := (List.subperm_of_subset h.nodup hsub).length_le
  rwa [List.length_range] at this

/-- No node waits for less than its sources that are left. -/
theorem Sound.card_le_waiting (h : s.Sound arrows) (j : Nat) :
    (arrows.sources s.gone j).card ≤ s.waiting.getD j 0 := by
  by_cases hj : j ∈ s.cycled.toList
  · exact (h.kept j hj).le
  · exact (h.waiting j hj).ge

/-- A step of the sort: the nodes `leaving` are dealt with, the nodes `aside` among them are set
aside, and the arrows to `targets` are released. -/
structure Step (arrows : Arrows) (leaving aside targets : List Nat) (s t : Sorting) : Prop where
  nodup : leaving.Nodup
  left : ∀ i ∈ leaving, s.gone.has i = false
  gone_size : t.gone.size = s.gone.size
  gone : ∀ i, t.gone.has i = true ↔ s.gone.has i = true ∨ i ∈ leaving
  dealt : ∀ i, t.gone.has i = true ↔ i ∈ t.ready.toList.take t.placed ∨ i ∈ t.cycled.toList
  placed_le : t.placed ≤ s.ready.toList.length
  cycled : t.cycled.toList = s.cycled.toList ++ aside
  aside_nodup : aside.Nodup
  aside_left : ∀ i ∈ aside, i ∈ leaving ∧ i ∉ s.ready.toList
  onCycle : ∀ i ∈ aside, arrows.OnCycle i
  allCycles : t.cycled.toList = [] ∨ ∀ i, arrows.OnCycle i → i ∈ t.cycled.toList
  waiting_size : t.waiting.size = s.waiting.size
  waiting : ∀ j, t.waiting.getD j 0 = s.waiting.getD j 0 - targets.count j
  enough : ∀ j, targets.count j ≤ s.waiting.getD j 0
  count : ∀ j, j ∉ t.cycled.toList → targets.count j = (leaving.flatMap arrows.next).count j
  kept : ∀ j ∈ t.cycled.toList, (arrows.sources t.gone j).card < t.waiting.getD j 0
  ready : ∃ fresh : List Nat, t.ready.toList = s.ready.toList ++ fresh ∧ fresh.Nodup
    ∧ ∀ j, j ∈ fresh ↔ j ∈ targets ∧ s.waiting.getD j 0 = targets.count j

namespace Step

section

variable (step : Step arrows leaving aside targets s t) (wf : arrows.WellFormed)
  (h : s.Sound arrows)
include step

theorem waiting_eq_zero_iff (j : Nat) :
    t.waiting.getD j 0 = 0 ↔ s.waiting.getD j 0 = targets.count j := by
  have := step.enough j
  rw [step.waiting j]
  omega

theorem mem_cycled_iff (j : Nat) :
    j ∈ t.cycled.toList ↔ j ∈ s.cycled.toList ∨ j ∈ aside := by
  rw [step.cycled, List.mem_append]

/-- A node that becomes ready is none of those set aside. -/
theorem not_cycled {j : Nat} (hj : t.waiting.getD j 0 = 0) : j ∉ t.cycled.toList := by
  intro hj'
  have := step.kept j hj'
  omega

/-- What becomes ready are the targets that wait for nothing more. -/
theorem exists_fresh : ∃ fresh : List Nat, t.ready.toList = s.ready.toList ++ fresh ∧ fresh.Nodup
    ∧ ∀ j, j ∈ fresh ↔ j ∈ targets ∧ t.waiting.getD j 0 = 0 := by
  obtain ⟨fresh, hready, hnodup, hfresh⟩ := step.ready
  refine ⟨fresh, hready, hnodup, fun j => ?_⟩
  rw [hfresh j, step.waiting_eq_zero_iff j]

theorem mem_ready_cases {j : Nat} (hj : j ∈ t.ready.toList) :
    j ∈ s.ready.toList ∨ j ∈ targets ∧ t.waiting.getD j 0 = 0 := by
  obtain ⟨fresh, hready, -, hfresh⟩ := step.exists_fresh
  rw [hready] at hj
  exact (List.mem_append.mp hj).imp_right (hfresh j).mp

include h

theorem not_ready_before {j : Nat} (hj : j ∈ targets) (hzero : t.waiting.getD j 0 = 0) :
    j ∉ s.ready.toList := by
  intro hj'
  have hpos := List.count_pos_iff.mpr hj
  have hwaiting := h.waiting_eq_zero hj'
  have hcount := (step.waiting_eq_zero_iff j).mp hzero
  omega

theorem onCycle_of_mem {i : Nat} (hi : i ∈ t.cycled.toList) : arrows.OnCycle i :=
  ((step.mem_cycled_iff i).mp hi).elim (h.onCycle i) (step.onCycle i)

theorem nodup_ready : t.ready.toList.Nodup := by
  obtain ⟨fresh, hready, hnodup, hfresh⟩ := step.exists_fresh
  rw [hready]
  refine List.nodup_append.mpr ⟨(List.nodup_append.mp h.nodup).1, hnodup, ?_⟩
  intro i hi j hj hij
  obtain ⟨htarget, hzero⟩ := (hfresh j).mp hj
  exact step.not_ready_before h htarget hzero (hij ▸ hi)

theorem nodup_cycled : t.cycled.toList.Nodup := by
  rw [step.cycled]
  refine List.nodup_append.mpr ⟨(List.nodup_append.mp h.nodup).2.1, step.aside_nodup, ?_⟩
  intro i hi j hj hij
  have hgone := (h.gone j).mpr (Or.inr (hij ▸ hi))
  exact Bool.eq_false_iff.mp (step.left j (step.aside_left j hj).1) hgone

theorem ready_not_cycled {i : Nat} (hi : i ∈ t.ready.toList) : i ∉ t.cycled.toList := by
  intro hi'
  rcases step.mem_ready_cases hi with hready | ⟨-, hzero⟩
  · rcases (step.mem_cycled_iff i).mp hi' with hcycled | haside
    · exact h.not_cycled_of_ready hready hcycled
    · exact (step.aside_left i haside).2 hready
  · exact step.not_cycled hzero hi'

theorem mem_ready_iff {j : Nat} (hlt : j < arrows.size) (hj : j ∉ t.cycled.toList) :
    j ∈ t.ready.toList ↔ t.waiting.getD j 0 = 0 := by
  obtain ⟨fresh, hready, -, hfresh⟩ := step.exists_fresh
  have hj' : j ∉ s.cycled.toList := fun h' => hj ((step.mem_cycled_iff j).mpr (Or.inl h'))
  rw [hready, List.mem_append, hfresh j, h.ready j hlt hj']
  have hwaiting := step.waiting j
  constructor
  · rintro (hzero | ⟨-, hzero⟩)
    · omega
    · exact hzero
  · intro hzero
    by_cases htarget : j ∈ targets
    · exact Or.inr ⟨htarget, hzero⟩
    · have hnone := List.count_eq_zero.mpr htarget
      exact Or.inl (by omega)

include wf

theorem waiting_eq_card (j : Nat) (hj : j ∉ t.cycled.toList) :
    t.waiting.getD j 0 = (arrows.sources t.gone j).card := by
  have hj' : j ∉ s.cycled.toList := fun h' => hj ((step.mem_cycled_iff j).mpr (Or.inl h'))
  rw [step.waiting j, h.waiting j hj', step.count j hj,
    ← Arrows.card_sources_add_count wf step.nodup step.left step.gone j, Nat.add_sub_cancel]

/-- Whatever leads to a node that waits for nothing more has been placed before or set aside. -/
theorem ready_or_cycled {i j : Nat} (hj : t.waiting.getD j 0 = 0) (hij : arrows.Leads i j) :
    i ∈ s.ready.toList ∨ i ∈ t.cycled.toList := by
  have hcard := step.waiting_eq_card wf h j (step.not_cycled hj)
  have hgone := Arrows.gone_of_card_sources_eq_zero (hcard.symm.trans hj) hij
  apply ((step.dealt i).mp hgone).imp_left
  intro hi
  obtain ⟨fresh, hready, -⟩ := step.ready
  rw [hready, List.take_append_of_le_length step.placed_le] at hi
  exact List.mem_of_mem_take hi

omit h in
theorem lt_size_of_mem {j : Nat} (hj : j ∈ targets) (hj' : j ∉ t.cycled.toList) :
    j < arrows.size := by
  have hcount := step.count j hj'
  have hpos := List.count_pos_iff.mpr hj
  rw [hcount] at hpos
  obtain ⟨i, -, hi⟩ := List.mem_flatMap.mp (List.count_pos_iff.mp hpos)
  exact wf.bounded hi

theorem bounded {i : Nat} (hi : i ∈ t.ready.toList ++ t.cycled.toList) : i < arrows.size := by
  rcases List.mem_append.mp hi with hi | hi
  · rcases step.mem_ready_cases hi with hready | ⟨htarget, hzero⟩
    · exact h.bounded i (List.mem_append_left _ hready)
    · exact step.lt_size_of_mem wf htarget (step.not_cycled hzero)
  · obtain ⟨j, hij, -⟩ := TransGen.head'_iff.mp (step.onCycle_of_mem h hi)
    exact Arrows.lt_size_of_mem_next hij

theorem ordered {i j : Nat} (hij : arrows.Leads i j) (hj : j ∈ t.ready.toList) :
    i ∈ t.cycled.toList ∨ [i, j].Sublist t.ready.toList := by
  obtain ⟨fresh, hready, -, hfresh⟩ := step.exists_fresh
  rw [hready] at hj ⊢
  rcases List.mem_append.mp hj with hj | hj
  · rcases h.ordered i j hij hj with hi | hsub
    · exact Or.inl ((step.mem_cycled_iff i).mpr (Or.inl hi))
    · exact Or.inr (hsub.trans (List.sublist_append_left _ _))
  · apply (step.ready_or_cycled wf h ((hfresh j).mp hj).2 hij).symm.imp_right
    intro hi
    exact List.Sublist.append (List.singleton_sublist.mpr hi) (List.singleton_sublist.mpr hj)

theorem acyclic {j : Nat} (hj : j ∈ t.ready.toList) : ¬ arrows.OnCycle j := by
  intro hcycle
  rcases step.mem_ready_cases hj with hready | ⟨-, hzero⟩
  · exact h.acyclic j hready hcycle
  -- a source on the cycle would have been set aside, and the node with it
  · obtain ⟨i, hij, hi⟩ := exists_previous_on_cycle hcycle
    rcases step.ready_or_cycled wf h hzero hij with hi' | hi'
    · exact h.acyclic i hi' hi
    · rcases step.allCycles with hnone | hall
      · rw [hnone] at hi'
        cases hi'
      · exact step.not_cycled hzero (hall j hcycle)

/-- A step keeps the invariant. -/
theorem sound : t.Sound arrows where
  waiting_size := step.waiting_size.trans h.waiting_size
  gone_size := step.gone_size.trans h.gone_size
  placed_le := by
    obtain ⟨fresh, hready, -⟩ := step.ready
    rw [hready, List.length_append]
    exact step.placed_le.trans (Nat.le_add_right _ _)
  bounded _ hi := step.bounded wf h hi
  nodup := by
    refine List.nodup_append.mpr ⟨step.nodup_ready h, step.nodup_cycled h, ?_⟩
    intro i hi j hj hij
    exact step.ready_not_cycled h hi (hij ▸ hj)
  gone := step.dealt
  waiting := step.waiting_eq_card wf h
  kept := step.kept
  ready _ hlt hj := step.mem_ready_iff h hlt hj
  ordered _ _ hij hj := step.ordered wf h hij hj
  acyclic _ hj := step.acyclic wf h hj
  onCycle _ hi := step.onCycle_of_mem h hi
  allCycles := step.allCycles

end

end Step

end Recalc.Sorting
