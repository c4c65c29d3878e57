import Mathlib.Data.Set.Card
import Recalc.Proofs.Graph.Building
import Recalc.Proofs.Graph.Waiting

/-!
# Counting edges

No arrow is listed twice, so the number of arrows is the number of edges between nodes. The set of
arrows and the nodes' lists hold the same arrows, so a count off one is a count off the other.
-/

namespace Recalc

/-- Sets whose elements are paired off have the same size. -/
theorem ncard_eq_of_pairs {α β : Type} {s : Set α} {t : Set β} (r : α → β → Prop)
    (left : ∀ a ∈ s, ∃ b ∈ t, r a b) (right : ∀ b ∈ t, ∃ a ∈ s, r a b)
    (functional : ∀ a b b', r a b → r a b' → b = b')
    (injective : ∀ a a' b, r a b → r a' b → a = a') : s.ncard = t.ncard := by
  choose f hf hr using left
  refine Set.ncard_congr f hf (fun a a' ha ha' heq => ?_) fun b hb => ?_
  · exact injective a a' (f a ha) (hr a ha) (heq ▸ hr a' ha')
  · obtain ⟨a, ha, hab⟩ := right b hb
    exact ⟨a, ha, functional a (f a ha) b (hr a ha) hab⟩

theorem ncard_eq_length {α : Type} {xs : List α} (hnodup : xs.Nodup) :
    {x | x ∈ xs}.ncard = xs.length := by
  classical
  rw [← List.coe_toFinset, Set.ncard_coe_finset, List.toFinset_card_of_nodup hnodup]

namespace Arrows

variable {arrows : Arrows}

/-- The arrows as pairs of numbers. -/
def pairs (arrows : Arrows) : List (Nat × Nat) :=
  (List.range arrows.size).flatMap fun i => (arrows.next i).map fun j => (i, j)

theorem mem_pairs_iff (arrows : Arrows) (i j : Nat) : (i, j) ∈ arrows.pairs ↔ arrows.Leads i j := by
  simp only [pairs, List.mem_flatMap, List.mem_range, List.mem_map, Prod.mk.injEq]
  constructor
  · rintro ⟨i', -, j', hj', rfl, rfl⟩
    exact hj'
  · intro hij
    exact ⟨i, lt_size_of_mem_next hij, j, hij, rfl, rfl⟩

theorem length_pairs (arrows : Arrows) :
    arrows.pairs.length = (arrows.toList.map Array.size).sum := by
  have hsizes : (List.range arrows.size).map (fun i => (arrows.next i).length)
      = arrows.toList.map Array.size := by
    apply List.ext_getElem (by simp)
    intro i hi _
    have hlt : i < arrows.size := by simpa using hi
    simp [next, Array.getD_eq_getD_getElem?, Array.getElem?_eq_getElem hlt]
  rw [pairs, List.length_flatMap, ← hsizes]
  simp only [List.length_map]

theorem WellFormed.nodup_pairs (wf : arrows.WellFormed) : arrows.pairs.Nodup := by
  refine List.nodup_flatMap.mpr ⟨fun i _ => ?_, List.nodup_range.imp fun {i i'} hne => ?_⟩
  · exact (wf.nodup i).map fun j j' heq => (Prod.mk.inj heq).2
  · rintro ⟨k, j⟩ hk hk'
    obtain ⟨_, -, heq⟩ := List.mem_map.mp hk
    obtain ⟨_, -, heq'⟩ := List.mem_map.mp hk'
    exact hne ((Prod.mk.inj heq).1.trans (Prod.mk.inj heq').1.symm)

theorem map_snd_pairs (arrows : Arrows) :
    arrows.pairs.map Prod.snd = (List.range arrows.size).flatMap arrows.next := by
  simp [pairs, List.map_flatMap, Function.comp_def]

end Arrows

namespace Graph

variable {α : Type} [Ord α] {g : Graph α}

/-- The set of arrows holds each arrow that the nodes list, once. -/
theorem WellFormed.perm_pairs (h : g.WellFormed) :
    (g.edges.toList.map fun e => (e.source, e.target)).Perm g.arrows.pairs := by
  have hnodup : g.edges.toList.Nodup := g.edges.distinct_toList.imp fun {e e'} hne heq =>
    hne (by rw [heq, Std.LawfulEqOrd.compare_eq_iff_eq])
  refine (List.perm_ext_iff_of_nodup (hnodup.map ?_) h.arrows.nodup_pairs).mpr ?_
  · rintro ⟨_, _⟩ ⟨_, _⟩ heq
    cases heq
    rfl
  · rintro ⟨i, j⟩
    rw [Arrows.mem_pairs_iff, ← h.hasArrow_iff, hasArrow, ← Std.TreeSet.contains_toList,
      List.contains_iff_mem, List.mem_map]
    constructor
    · rintro ⟨e, he, heq⟩
      cases heq
      exact he
    · exact fun hij => ⟨⟨i, j⟩, hij, rfl⟩

/-- A sort may count the arrows to each node off the set of arrows, whatever the order in which the
set gives them. -/
theorem WellFormed.arrowsInto_eq (h : g.WellFormed) {order : List Arrow}
    (perm : order.Perm g.edges.toList) :
    (∀ e ∈ order, e.target < g.nodes.size) ∧ Sorting.arrowsInto g.arrows
      = order.foldl (fun counts e => counts.modify e.target (· + 1))
        (Array.replicate g.nodes.size 0) := by
  refine ⟨fun e he => ?_, ?_⟩
  · have hmem : (e.source, e.target) ∈ g.arrows.pairs :=
      h.perm_pairs.subset (List.mem_map_of_mem (perm.subset he))
    exact h.size ▸ h.arrows.bounded ((Arrows.mem_pairs_iff _ _ _).mp hmem)
  · have htargets : (order.map Arrow.target).Perm
        ((List.range g.arrows.size).flatMap g.arrows.next) := by
      have hpairs := h.perm_pairs.map Prod.snd
      rw [List.map_map, Arrows.map_snd_pairs] at hpairs
      exact (perm.map Arrow.target).trans hpairs
    rw [Sorting.arrowsInto_eq_foldl, ← Sorting.foldl_count_perm htargets, List.foldl_map, h.size]

/-- The set of arrows has one entry for each of the arrows that the nodes list. -/
theorem WellFormed.edgeCount_eq_sum (h : g.WellFormed) :
    g.edgeCount = (g.arrows.toList.map Array.size).sum := by
  rw [edgeCount, ← Std.TreeSet.length_toList, ← Arrows.length_pairs, ← h.perm_pairs.length_eq,
    List.length_map]

/-- A graph has as many arrows as its nodes have dependents. -/
theorem WellFormed.edgeCount_eq_lengths (h : g.WellFormed) :
    g.edgeCount = (g.toList.map fun a => (g.dependents a).length).sum := by
  have hlengths : g.arrows.toList.map Array.size
      = g.toList.map fun a => (g.dependents a).length := by
    refine List.ext_getElem (by simp [toList, h.size]) fun i hi hi' => ?_
    have hlt : i < g.nodes.size := by simpa [toList] using hi'
    have hnumber := (h.number?_iff _ i).mpr (Array.getElem?_eq_getElem hlt)
    have hnamed : (g.named (g.arrows.next i)).length = (g.arrows.next i).length :=
      List.filterMap_length_eq_length.mpr fun j hj => by
        rw [Array.getElem?_eq_getElem (h.size ▸ h.arrows.bounded hj)]
        rfl
    have hrow : i < g.arrows.size := h.size ▸ hlt
    simp only [List.getElem_map, toList, Array.getElem_toList]
    rw [dependents_eq hnumber, hnamed, Arrows.next, Array.getD_eq_getD_getElem?,
      Array.getElem?_eq_getElem hrow]
    rfl
  rw [h.edgeCount_eq_sum, hlengths]

/-- The arrows of a graph are as many as its edges. -/
theorem WellFormed.edgeCount_eq (h : g.WellFormed) :
    g.edgeCount = {p : α × α | g.Edge p.1 p.2}.ncard := by
  rw [h.edgeCount_eq_sum, ← Arrows.length_pairs, ← ncard_eq_length h.arrows.nodup_pairs]
  refine ncard_eq_of_pairs
    (fun p q => g.nodes[p.1]? = some q.1 ∧ g.nodes[p.2]? = some q.2) ?_ ?_ ?_ ?_
  · rintro ⟨i, j⟩ hij
    have hleads := (g.arrows.mem_pairs_iff i j).mp hij
    have hi : i < g.nodes.size := h.size ▸ Arrows.lt_size_of_mem_next hleads
    have hj : j < g.nodes.size := h.size ▸ h.arrows.bounded hleads
    have hi' := Array.getElem?_eq_getElem hi
    have hj' := Array.getElem?_eq_getElem hj
    exact ⟨(_, _), (h.edge_iff _ _).mpr ⟨i, j, hi', hj', hleads⟩, hi', hj'⟩
  · rintro ⟨a, b⟩ hab
    obtain ⟨i, j, hi, hj, hleads⟩ := (h.edge_iff a b).mp hab
    exact ⟨(i, j), (g.arrows.mem_pairs_iff i j).mpr hleads, hi, hj⟩
  · rintro p ⟨a, b⟩ ⟨a', b'⟩ ⟨ha, hb⟩ ⟨ha', hb'⟩
    exact Prod.ext (Option.some.inj (ha.symm.trans ha')) (Option.some.inj (hb.symm.trans hb'))
  · rintro ⟨i, j⟩ ⟨i', j'⟩ q ⟨hi, hj⟩ ⟨hi', hj'⟩
    exact Prod.ext (h.index_unique hi hi') (h.index_unique hj hj')

end Graph

end Recalc
