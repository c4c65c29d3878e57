import Recalc.Proofs.Graph.Building
import Recalc.Proofs.Graph.Rounds

/-!
# The order of evaluation

The sort splits the nodes of a graph: those that reach themselves are set aside in the order in
which they were added, and each of the others stands behind all that it reads. So a node before,
behind or between cycles is never set aside.
-/

namespace Recalc.Graph

open Relation

variable {α : Type} [Ord α]

/-- A node that reaches itself by at least one edge. -/
def OnCycle (g : Graph α) (a : α) : Prop := TransGen g.Edge a a

/-- What an order of evaluation of a graph has to be. -/
structure Arranges (g : Graph α) (o : Order α) : Prop where
  nodup : (o.sorted ++ o.cycled).Nodup
  perm : (o.sorted ++ o.cycled).Perm g.toList
  mem_cycled_iff : ∀ a, a ∈ o.cycled ↔ g.OnCycle a
  inOrder : o.cycled.Sublist g.toList
  before : ∀ a b, g.Edge a b → a ∈ o.sorted → b ∈ o.sorted → [a, b].Sublist o.sorted

namespace Arranges

variable {g : Graph α} {o : Order α}

theorem not_cycled_of_sorted (h : g.Arranges o) {a : α} (ha : a ∈ o.sorted) : a ∉ o.cycled :=
  fun ha' => (List.nodup_append.mp h.nodup).2.2 a ha a ha' rfl

/-- The nodes that are not set aside are those off the cycles. -/
theorem mem_sorted_iff (h : g.Arranges o) (a : α) :
    a ∈ o.sorted ↔ a ∈ g.toList ∧ ¬ g.OnCycle a := by
  rw [← h.perm.mem_iff, ← h.mem_cycled_iff, List.mem_append]
  constructor
  · intro ha
    exact ⟨Or.inl ha, h.not_cycled_of_sorted ha⟩
  · intro ha
    exact ha.1.resolve_right ha.2

/-- Nodes off the cycles can change places as long as each stays behind all that it reads. -/
theorem reorder (h : g.Arranges o) {sorted : List α} (hperm : sorted.Perm o.sorted)
    (hbefore : ∀ a b, g.Edge a b → a ∈ sorted → b ∈ sorted → [a, b].Sublist sorted) :
    g.Arranges ⟨sorted, o.cycled⟩ where
  nodup := (hperm.append_right o.cycled).nodup_iff.mpr h.nodup
  perm := (hperm.append_right o.cycled).trans h.perm
  mem_cycled_iff := h.mem_cycled_iff
  inOrder := h.inOrder
  before := hbefore

end Arranges

/-! ## Numbers and the nodes that they name -/

variable {g : Graph α}

theorem named_append (g : Graph α) (is js : List Nat) :
    g.named (is ++ js) = g.named is ++ g.named js := List.filterMap_append

omit [Ord α] in
theorem filterMap_getElem?_range (nodes : List α) :
    (List.range nodes.length).filterMap (nodes[·]?) = nodes := by
  induction nodes with
  | nil => rfl
  | cons a nodes ih =>
      rw [List.length_cons, List.range_succ_eq_map, List.filterMap_cons, List.filterMap_map]
      exact congrArg (a :: ·) ih

theorem named_range (g : Graph α) : g.named (List.range g.nodes.size) = g.toList := by
  have h := filterMap_getElem?_range g.nodes.toList
  simp only [Array.getElem?_toList, Array.length_toList] at h
  exact h

namespace WellFormed

variable (h : g.WellFormed)
include h

/-- A path between nodes is a path between their numbers. -/
theorem transGen_edge_iff {a b : α} {i j : Nat} (hi : g.nodes[i]? = some a)
    (hj : g.nodes[j]? = some b) : TransGen g.Edge a b ↔ TransGen g.arrows.Leads i j := by
  constructor
  · intro hab
    induction hab generalizing j with
    | single hab =>
        obtain ⟨k, l, hk, hl, hkl⟩ := (h.edge_iff _ _).mp hab
        rw [h.index_unique hi hk, h.index_unique hj hl]
        exact TransGen.single hkl
    | tail hab hbc ih =>
        obtain ⟨k, l, hk, hl, hkl⟩ := (h.edge_iff _ _).mp hbc
        rw [h.index_unique hj hl]
        exact (ih hk).tail hkl
  · intro hij
    induction hij generalizing b with
    | single hij => exact TransGen.single ((h.edge_iff _ _).mpr ⟨i, _, hi, hj, hij⟩)
    | @tail k l hik hkl ih =>
        have hk : k < g.nodes.size := h.size ▸ Arrows.lt_size_of_mem_next hkl
        have hk' := Array.getElem?_eq_getElem hk
        exact (ih hk').tail ((h.edge_iff _ _).mpr ⟨k, l, hk', hj, hkl⟩)

theorem onCycle_iff {a : α} {i : Nat} (hi : g.nodes[i]? = some a) :
    g.OnCycle a ↔ g.arrows.OnCycle i := h.transGen_edge_iff hi hi

theorem exists_index_of_onCycle {a : α} (ha : g.OnCycle a) :
    ∃ i : Nat, g.nodes[i]? = some a := by
  obtain ⟨b, hab, -⟩ := TransGen.head'_iff.mp ha
  obtain ⟨i, -, hi, -⟩ := (h.edge_iff _ _).mp hab
  exact ⟨i, hi⟩

/-- Sorting a graph gives an order of evaluation. -/
theorem arranges_sort : g.Arranges g.sort := by
  have complete := Sorting.complete_run h.arrows
  have hperm : (g.sort.sorted ++ g.sort.cycled).Perm g.toList := by
    have hall :=
      (complete.cycledInOrder_perm.append_left (Sorting.run g.arrows).ready.toList).trans
        complete.perm
    rw [h.size] at hall
    have := hall.filterMap (g.nodes[·]?)
    rwa [← named, ← named, named_append, named_range] at this
  refine ⟨hperm.nodup_iff.mpr h.nodup_toList, hperm, fun a => ?_, ?_, fun a b hab ha hb => ?_⟩
  · rw [sort, mem_named_iff]
    constructor
    · rintro ⟨i, hi, ha⟩
      exact (h.onCycle_iff ha).mpr ((complete.mem_cycledInOrder_iff i).mp hi)
    · intro hcycle
      obtain ⟨i, hi⟩ := h.exists_index_of_onCycle hcycle
      exact ⟨i, (complete.mem_cycledInOrder_iff i).mpr ((h.onCycle_iff hi).mp hcycle), hi⟩
  · rw [← named_range, ← h.size, ← complete.sound.gone_size]
    exact List.filter_sublist.filterMap _
  · obtain ⟨i, j, hi, hj, hij⟩ := (h.edge_iff a b).mp hab
    obtain ⟨i', hi', ha⟩ := (mem_named_iff g _ a).mp ha
    obtain ⟨j', hj', hb⟩ := (mem_named_iff g _ b).mp hb
    obtain rfl := h.index_unique hi ha
    obtain rfl := h.index_unique hj hb
    have := (complete.before hij hi' hj').filterMap (g.nodes[·]?)
    rwa [List.filterMap_cons, List.filterMap_cons, hi, hj] at this

end WellFormed

/-- In every graph that can be built, the sort splits the nodes into those that reach themselves, in
the order in which they were added, and the others, each edge between which leads forward. -/
theorem sort_built [Std.TransOrd α] [Std.LawfulEqOrd α] (changes : List (GraphChange α)) :
    let g := built changes
    (g.sort.sorted ++ g.sort.cycled).Perm g.toList ∧ g.toList.Nodup
      ∧ (∀ a, a ∈ g.sort.cycled ↔ TransGen (fun b c => g.hasEdge b c = true) a a)
      ∧ g.sort.cycled.Sublist g.toList
      ∧ (∀ a, a ∈ g.sort.sorted ↔
          a ∈ g.toList ∧ ¬ TransGen (fun b c => g.hasEdge b c = true) a a)
      ∧ ∀ a b, g.hasEdge a b = true → a ∈ g.sort.sorted → b ∈ g.sort.sorted →
          [a, b].Sublist g.sort.sorted := by
  intro g
  have wf : g.WellFormed := wellFormed_built changes
  have h := wf.arranges_sort
  exact ⟨h.perm, wf.nodup_toList, h.mem_cycled_iff, h.inOrder, h.mem_sorted_iff, h.before⟩

/-- Two cycles with a node before, a node between and a node behind them. -/
def twoCycles : List (GraphChange Nat) :=
  (List.range 7).map .addNode ++ [.addEdge 0 1, .addEdge 1 2, .addEdge 2 1, .addEdge 2 3,
    .addEdge 3 4, .addEdge 4 5, .addEdge 5 4, .addEdge 5 6, .addEdge 6 0, .removeEdge 6 0]

theorem sort_built_twoCycles :
    let g := built twoCycles
    g.sort.sorted = [0, 3, 6] ∧ g.sort.cycled = [1, 2, 4, 5]
      ∧ (g.sort.sorted ++ g.sort.cycled).Perm g.toList
      ∧ TransGen (fun b c => g.hasEdge b c = true) 4 4
      ∧ ¬ TransGen (fun b c => g.hasEdge b c = true) 3 3
      ∧ [0, 3].Sublist g.sort.sorted := by
  intro g
  obtain ⟨perm, -, cycled, -, sorted, -⟩ := sort_built twoCycles
  have hsorted : g.sort.sorted = [0, 3, 6] := by decide +kernel
  have hcycled : g.sort.cycled = [1, 2, 4, 5] := by decide +kernel
  refine ⟨hsorted, hcycled, perm, (cycled 4).mp ?_, ((sorted 3).mp ?_).2, ?_⟩
  · rw [hcycled]
    decide
  · rw [hsorted]
    decide
  · rw [hsorted]
    decide

end Recalc.Graph
