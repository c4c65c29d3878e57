import Mathlib.Algebra.BigOperators.Group.Finset.Piecewise
import Recalc.Graph.Sort
import Recalc.Proofs.Graph.Arrows

/-!
# Counting arrows

A sort counts for each node the arrows that lead to it from nodes not yet dealt with. Arrows are
released one at a time; a node becomes ready when its last one is released, so it becomes ready
once.
-/

namespace Recalc

namespace Arrows

/-- The nodes that are left and lead to a node. -/
def sources (arrows : Arrows) (gone : Marks) (j : Nat) : Finset Nat :=
  (Finset.range arrows.size).filter fun i => gone.has i = false ∧ j ∈ arrows.next i

@[simp] theorem mem_sources {arrows : Arrows} {gone : Marks} {i j : Nat} :
    i ∈ arrows.sources gone j ↔ gone.has i = false ∧ j ∈ arrows.next i := by
  simp only [sources, Finset.mem_filter, Finset.mem_range]
  exact and_iff_right_of_imp fun h => lt_size_of_mem_next h.2

/-- What leads to a node without sources is gone. -/
theorem gone_of_card_sources_eq_zero {arrows : Arrows} {gone : Marks} {i j : Nat}
    (h : (arrows.sources gone j).card = 0) (hij : arrows.Leads i j) : gone.has i = true := by
  by_contra hleft
  have hmem := mem_sources.mpr ⟨Bool.eq_false_iff.mpr hleft, hij⟩
  rw [Finset.card_eq_zero.mp h] at hmem
  cases hmem

/-- When nodes go, each node loses as many sources as arrows lead to it from them. -/
theorem card_sources_add_count {arrows : Arrows} (wf : arrows.WellFormed) {gone more : Marks}
    {leaving : List Nat} (nodup : leaving.Nodup) (hleft : ∀ i ∈ leaving, gone.has i = false)
    (hmore : ∀ i, more.has i = true ↔ gone.has i = true ∨ i ∈ leaving) (j : Nat) :
    (arrows.sources more j).card + (leaving.flatMap arrows.next).count j
      = (arrows.sources gone j).card := by
  have hcount : (leaving.flatMap arrows.next).count j
      = (leaving.toFinset.filter fun i => j ∈ arrows.next i).card := by
    rw [List.count_flatMap, ← List.sum_toFinset _ nodup, Finset.card_filter]
    apply Finset.sum_congr rfl
    intro i _
    exact (wf.nodup i).count
  rw [hcount, ← Finset.card_union_of_disjoint]
  · congr 1
    ext i
    simp only [Finset.mem_union, mem_sources, Finset.mem_filter, List.mem_toFinset,
      ← Bool.not_eq_true, hmore i]
    constructor
    · rintro (⟨h, hj⟩ | ⟨hi, hj⟩)
      · exact ⟨fun hi => h (Or.inl hi), hj⟩
      · exact ⟨by simpa using hleft i hi, hj⟩
    · rintro ⟨h, hj⟩
      by_cases hi : i ∈ leaving
      · exact Or.inr ⟨hi, hj⟩
      · exact Or.inl ⟨fun hor => hor.elim h hi, hj⟩
  · rw [Finset.disjoint_left]
    intro i hi hi'
    have hmem := (hmore i).mpr (Or.inr (List.mem_toFinset.mp (Finset.mem_filter.mp hi').1))
    exact Bool.eq_false_iff.mp (mem_sources.mp hi).1 hmem

end Arrows

namespace Sorting

/-! ## The first count -/

theorem getD_foldl_count (targets : List Nat) (counts : Array Nat) (j : Nat) :
    let counted := targets.foldl (fun counts j => counts.modify j (· + 1)) counts
    counted.size = counts.size
      ∧ (j < counts.size → counted.getD j 0 = counts.getD j 0 + targets.count j) := by
  induction targets generalizing counts with
  | nil => simp
  | cons t rest ih =>
      obtain ⟨hsize, hget⟩ := ih (counts.modify t (· + 1))
      rw [Array.size_modify] at hsize hget
      refine ⟨hsize, fun hj => (hget hj).trans ?_⟩
      rw [List.count_cons]
      simp only [Array.getD_eq_getD_getElem?, Array.getElem?_modify]
      by_cases htj : t = j
      · subst htj
        simp only [Array.getElem?_eq_getElem hj, if_true, Option.map_some, Option.getD_some,
          beq_self_eq_true]
        omega
      · simp [htj]

/-- A count is the same in any order. -/
theorem foldl_count_perm {targets targets' : List Nat} (perm : targets.Perm targets')
    (counts : Array Nat) :
    targets.foldl (fun counts j => counts.modify j (· + 1)) counts
      = targets'.foldl (fun counts j => counts.modify j (· + 1)) counts := by
  have hsize := (getD_foldl_count targets counts 0).1
  have hsize' := (getD_foldl_count targets' counts 0).1
  refine Array.ext (hsize.trans hsize'.symm) fun j hj _ => ?_
  have hlt : j < counts.size := hsize ▸ hj
  have hget := (getD_foldl_count targets counts j).2 hlt
  have hget' := (getD_foldl_count targets' counts j).2 hlt
  rw [perm.count_eq j, ← hget'] at hget
  rwa [Array.getElem_eq_getD 0, Array.getElem_eq_getD 0]

theorem arrowsInto_eq_foldl (arrows : Arrows) :
    arrowsInto arrows = ((List.range arrows.size).flatMap arrows.next).foldl
      (fun counts j => counts.modify j (· + 1)) (Array.replicate arrows.size 0) := by
  have hrows : (List.range arrows.size).flatMap arrows.next
      = arrows.toList.flatMap Array.toList := by
    rw [List.flatMap_def, List.flatMap_def]
    congr 1
    apply List.ext_getElem
    · simp
    · intro i hi hi'
      have hlt : i < arrows.size := by simpa using hi
      simp [Arrows.next, hlt]
  rw [hrows, List.foldl_flatMap]
  rfl

theorem size_arrowsInto (arrows : Arrows) : (arrowsInto arrows).size = arrows.size := by
  rw [arrowsInto_eq_foldl, (getD_foldl_count _ _ 0).1, Array.size_replicate]

/-- At first each node waits for all its sources. -/
theorem getD_arrowsInto {arrows : Arrows} (wf : arrows.WellFormed) {j : Nat}
    (hj : j < arrows.size) :
    (arrowsInto arrows).getD j 0 = (arrows.sources (Marks.none arrows.size) j).card := by
  rw [arrowsInto_eq_foldl, (getD_foldl_count _ _ j).2 (by simpa using hj)]
  have hall : ∀ i, ((Marks.none arrows.size).addAll (List.range arrows.size)).has i = true ↔
      (Marks.none arrows.size).has i = true ∨ i ∈ List.range arrows.size := by
    intro i
    simp [Marks.has_addAll_iff]
  rw [← Arrows.card_sources_add_count wf List.nodup_range (fun i _ => Marks.has_none _ i) hall j]
  have hnone : arrows.sources ((Marks.none arrows.size).addAll (List.range arrows.size)) j = ∅ := by
    ext i
    rw [Arrows.mem_sources]
    refine iff_of_false (fun h => ?_) (by simp)
    have hmem := (hall i).mpr (Or.inr (List.mem_range.mpr (Arrows.lt_size_of_mem_next h.2)))
    exact Bool.eq_false_iff.mp h.1 hmem
  simp [hnone, hj]

/-! ## Releasing arrows -/

/-- What is left of a sort's state once arrows to `targets` have been released, one for each
occurrence. -/
structure Released (targets : List Nat) (s t : Sorting) : Prop where
  gone : t.gone = s.gone
  placed : t.placed = s.placed
  cycled : t.cycled = s.cycled
  size : t.waiting.size = s.waiting.size
  waiting : ∀ j, t.waiting.getD j 0 = s.waiting.getD j 0 - targets.count j
  ready : ∃ fresh : List Nat, t.ready.toList = s.ready.toList ++ fresh ∧ fresh.Nodup
    ∧ ∀ j, j ∈ fresh ↔ j ∈ targets ∧ s.waiting.getD j 0 = targets.count j

theorem getD_release (s : Sorting) (j k : Nat) :
    (s.release j).waiting.getD k 0 = s.waiting.getD k 0 - [j].count k := by
  simp only [release, Array.getD_eq_getD_getElem?, Array.getElem?_setIfInBounds]
  by_cases hjk : j = k
  · subst hjk
    by_cases hj : j < s.waiting.size <;> simp [hj]
  · simp [hjk]

theorem toList_ready_release (s : Sorting) (j : Nat) :
    (s.release j).ready.toList
      = s.ready.toList ++ if s.waiting.getD j 0 ≤ 1 then [j] else [] := by
  simp only [release, Nat.sub_eq_zero_iff_le]
  split <;> simp

/-- Releasing one arrow. -/
theorem released_release (s : Sorting) {j : Nat}
    (hpos : 0 < s.waiting.getD j 0) : Released [j] s (s.release j) where
  gone := rfl
  placed := rfl
  cycled := rfl
  size := by simp [release]
  waiting := getD_release s j
  ready := by
    refine ⟨if s.waiting.getD j 0 ≤ 1 then [j] else [], toList_ready_release s j, ?_⟩
    have hself : [j].count j = 1 := List.count_singleton_self
    by_cases hlast : s.waiting.getD j 0 ≤ 1
    · rw [if_pos hlast]
      refine ⟨List.nodup_singleton j, fun k => (and_iff_left_of_imp fun hk => ?_).symm⟩
      rw [List.mem_singleton.mp hk]
      omega
    · rw [if_neg hlast]
      refine ⟨List.nodup_nil, fun k => iff_of_false List.not_mem_nil ?_⟩
      rintro ⟨hk, hcount⟩
      rw [List.mem_singleton.mp hk] at hcount
      omega

/-- Releases one after the other are one release. If no more arrows are released than a node waits
for, it becomes ready at most once, with its last arrow. -/
theorem Released.trans {first second : List Nat} {s t u : Sorting} (h : Released first s t)
    (h' : Released second t u)
    (enough : ∀ j, (first ++ second).count j ≤ s.waiting.getD j 0) :
    Released (first ++ second) s u where
  gone := h'.gone.trans h.gone
  placed := h'.placed.trans h.placed
  cycled := h'.cycled.trans h.cycled
  size := h'.size.trans h.size
  waiting j := by rw [h'.waiting j, h.waiting j, List.count_append, Nat.sub_add_eq]
  ready := by
    obtain ⟨fresh, hready, hnodup, hfresh⟩ := h.ready
    obtain ⟨fresh', hready', hnodup', hfresh'⟩ := h'.ready
    refine ⟨fresh ++ fresh', ?_, List.nodup_append.mpr ⟨hnodup, hnodup', ?_⟩, fun k => ?_⟩
    · rw [hready', hready, List.append_assoc]
    · rintro k hk _ hk' rfl
      obtain ⟨hmem, hwaiting⟩ := (hfresh' k).mp hk'
      have hpos := List.count_pos_iff.mpr hmem
      have hcount := ((hfresh k).mp hk).2
      have hleft := h.waiting k
      omega
    · have hleft := h.waiting k
      have henough := enough k
      rw [List.mem_append, hfresh k, hfresh' k, List.mem_append, List.count_append]
      rw [List.count_append] at henough
      constructor
      · rintro (⟨hk, hcount⟩ | ⟨hk, hcount⟩)
        · exact ⟨Or.inl hk, by omega⟩
        · exact ⟨Or.inr hk, by omega⟩
      · rintro ⟨hk, hcount⟩
        by_cases hk' : k ∈ second
        · exact Or.inr ⟨hk', by omega⟩
        · have hnone := List.count_eq_zero.mpr hk'
          exact Or.inl ⟨hk.resolve_right hk', by omega⟩

theorem foldl_release (targets : List Nat) (s : Sorting)
    (enough : ∀ j, targets.count j ≤ s.waiting.getD j 0) :
    Released targets s (targets.foldl release s) := by
  induction targets generalizing s with
  | nil => exact ⟨rfl, rfl, rfl, rfl, by simp, [], by simp⟩
  | cons j rest ih =>
      have hcount : ∀ k, (j :: rest).count k = [j].count k + rest.count k := by
        intro k
        rw [← List.singleton_append, List.count_append]
      have hself : [j].count j = 1 := List.count_singleton_self
      have hone := released_release s (j := j) (by
        have henough := enough j
        rw [hcount j] at henough
        omega)
      refine hone.trans (ih (s.release j) fun k => ?_) enough
      have henough := enough k
      rw [hcount k] at henough
      rw [hone.waiting k]
      omega

end Sorting

end Recalc
