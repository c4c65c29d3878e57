import Recalc.Proofs.Graph.Counting
import Recalc.Proofs.Sheet.Solution

/-!
# Counts of a sheet

Arrows, formulas and what is on cycles are counted by vertices. Each count is that of something said
in terms of addresses, so it depends on the contents of the sheet only.
-/

namespace Recalc

open Relation

namespace Store

theorem nodup_toList (s : Store) : s.toList.Nodup := by
  have hindices : (s.vertices.toList.zipIdx.map Prod.snd).Nodup := by
    rw [List.zipIdx_map_snd]
    exact List.nodup_range'
  apply (List.Nodup.of_map Prod.snd hindices).map
  rintro ⟨v, i⟩ ⟨v', i'⟩ heq
  exact Prod.ext (Prod.mk.inj heq).2 (VertexId.mk.inj (Prod.mk.inj heq).1)

theorem formulaCount_eq (s : Store) :
    s.formulaCount = (s.toList.filter fun entry => entry.2.isFormula).length := by
  have hvertices : s.toList.map Prod.snd = s.vertices.toList := by
    rw [toList, List.map_map]
    exact List.zipIdx_map_fst 0 s.vertices.toList
  rw [formulaCount, ← hvertices, List.countP_map, List.countP_eq_length_filter]
  rfl

end Store

namespace Sheet

variable {functions : Registry} {s t : Sheet} {reads : Dependency → Dependency → Prop}
  {o : Order VertexId}

/-- The arrows are as many as the pairs of what reads and what is read. -/
theorem Linked.edgeCount_eq (h : s.Linked reads) :
    s.graph.edgeCount = {p : Dependency × Dependency | reads p.1 p.2}.ncard := by
  rw [h.labelled.graph.edgeCount_eq]
  refine ncard_eq_of_pairs
    (fun p q => s.find? q.1 = some p.2 ∧ s.find? q.2 = some p.1) ?_ ?_ ?_ ?_
  · rintro ⟨u, v⟩ huv
    obtain ⟨e, d, hread, hv, hu⟩ := (h.edge_iff u v).mp huv
    exact ⟨(e, d), hread, hv, hu⟩
  · rintro ⟨e, d⟩ hread
    obtain ⟨v, hv⟩ := h.reader e d hread
    obtain ⟨u, hu⟩ := h.source e d hread
    exact ⟨(u, v), (h.edge_iff u v).mpr ⟨e, d, hread, hv, hu⟩, hv, hu⟩
  · rintro ⟨u, v⟩ ⟨e, d⟩ ⟨e', d'⟩ ⟨hv, hu⟩ ⟨hv', hu'⟩
    exact Prod.ext (h.labelled.inj _ _ _ hv hv') (h.labelled.inj _ _ _ hu hu')
  · rintro ⟨u, v⟩ ⟨u', v'⟩ ⟨e, d⟩ ⟨hv, hu⟩ ⟨hv', hu'⟩
    exact Prod.ext (Option.some.inj (hu.symm.trans hu')) (Option.some.inj (hv.symm.trans hv'))

/-- The vertices of formulas are as many as the cells with formulas. -/
theorem Labelled.formulaCount_eq (h : s.Labelled) :
    s.store.formulaCount = {a : Address | s.formulaAt a ≠ none}.ncard := by
  rw [s.store.formulaCount_eq, ← ncard_eq_length (s.store.nodup_toList.filter _)]
  refine ncard_eq_of_pairs
    (fun entry a => s.store.get? entry.1 = some entry.2 ∧ s.find? (.cell a) = some entry.1)
    ?_ ?_ ?_ ?_
  · rintro ⟨id, v⟩ hmem
    obtain ⟨hv, hformula⟩ := List.mem_filter.mp hmem
    have hget := (s.store.mem_toList_iff id v).mp hv
    cases v with
    | formula x home shown =>
        have hx := h.formulaAt_eq_some_iff.mpr ⟨id, shown, hget⟩
        exact ⟨home, Option.ne_none_iff_exists'.mpr ⟨x, hx⟩, hget, h.find?_home hget⟩
    | _ => cases hformula
  · intro a ha
    obtain ⟨x, hx⟩ := Option.ne_none_iff_exists'.mp ha
    obtain ⟨id, shown, hget⟩ := h.formulaAt_eq_some_iff.mp hx
    have hmem := (s.store.mem_toList_iff _ _).mpr hget
    exact ⟨(id, _), List.mem_filter.mpr ⟨hmem, rfl⟩, hget, h.find?_home hget⟩
  · rintro entry a a' ⟨-, ha⟩ ⟨-, ha'⟩
    exact Dependency.cell.inj (h.inj _ _ _ ha ha')
  · rintro ⟨id, v⟩ ⟨id', v'⟩ a ⟨hv, hid⟩ ⟨hv', hid'⟩
    obtain rfl : id = id' := Option.some.inj (hid.symm.trans hid')
    exact Prod.ext rfl (Option.some.inj (hv.symm.trans hv'))

/-- What is set aside is as much as what reads itself. -/
theorem Passable.length_cycled (h : s.Passable functions o) :
    o.cycled.length = {d : Dependency | TransGen (s.Reads functions) d d}.ncard := by
  rw [← ncard_eq_length (List.nodup_append.mp h.arranges.nodup).2.1]
  refine ncard_eq_of_pairs (fun id d => s.find? d = some id) ?_ ?_ ?_ ?_
  · intro id hid
    obtain ⟨x, home, shown, hget⟩ := h.formulas id hid
    have hhome := h.wired.labelled.find?_home hget
    exact ⟨.cell home, (h.mem_cycled_iff hhome).mp hid, hhome⟩
  · intro d hd
    obtain ⟨id, hid⟩ := h.wired.exists_find? hd
    exact ⟨id, (h.mem_cycled_iff hid).mpr hd, hid⟩
  · intro id d d' hd hd'
    exact h.wired.labelled.inj d d' id hd hd'
  · intro id id' d hid hid'
    exact Option.some.inj (hid.symm.trans hid')

end Sheet

end Recalc
