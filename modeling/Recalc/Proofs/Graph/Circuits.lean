import Mathlib.Data.List.Cycle
import Recalc.Proofs.Graph.Components
import Recalc.Proofs.Graph.Order

/-!
# Circuits

A circuit is a round of different nodes, each of which leads to the next. A node reaches itself if
and only if it is on a circuit. So, whatever nodes are gone, the search for cycles finds every node
once that is on a circuit of nodes that are left, and no other node.
-/

namespace Recalc

open Relation

section Paths

variable {α : Type} {arrow : α → α → Prop} {a b : α}

/-- A path that comes back to a node can be cut short there. -/
theorem exists_nodup_path (h : ReflTransGen arrow a b) :
    ∃ rest, (a :: rest).IsChain arrow ∧ (a :: rest).Nodup
      ∧ (a :: rest).getLast (List.cons_ne_nil a rest) = b := by
  induction h using ReflTransGen.head_induction_on with
  | refl => exact ⟨[], .singleton b, List.nodup_singleton b, rfl⟩
  | @head a c hac _ ih =>
      obtain ⟨rest, hchain, hnodup, hlast⟩ := ih
      by_cases ha : a ∈ c :: rest
      · obtain ⟨front, back, hcut⟩ := List.append_of_mem ha
        have hback : a :: back <:+ c :: rest := ⟨front, hcut.symm⟩
        refine ⟨back, hchain.suffix hback, hnodup.sublist hback.sublist, ?_⟩
        rw [← hlast]
        simp only [hcut, List.getLast_append_of_ne_nil _ (List.cons_ne_nil a back)]
      · refine ⟨c :: rest, hchain.cons_cons hac, List.nodup_cons.mpr ⟨ha, hnodup⟩, ?_⟩
        rw [List.getLast_cons (List.cons_ne_nil c rest), hlast]

/-- On a round of arrows every node reaches every other one and itself. -/
theorem transGen_of_chain {c : Cycle α} (hc : c.Chain arrow) (ha : a ∈ c) (hb : b ∈ c) :
    TransGen arrow a b :=
  Cycle.chain_iff_pairwise.mp (hc.imp fun _ _ => TransGen.single) a ha b hb

theorem transGen_self_iff_exists_chain :
    TransGen arrow a a ↔ ∃ c : Cycle α, a ∈ c ∧ c.Nodup ∧ c.Chain arrow := by
  constructor
  · intro h
    obtain ⟨b, hab, hba⟩ := TransGen.head'_iff.mp h
    obtain ⟨rest, hchain, hnodup, hlast⟩ := exists_nodup_path hba
    refine ⟨(b :: rest : List α), ?_, hnodup, ?_⟩
    · exact Cycle.mem_coe_iff.mpr (hlast ▸ List.getLast_mem _)
    · rw [Cycle.chain_ne_nil arrow (List.cons_ne_nil b rest), hlast]
      exact hchain.cons_cons hab
  · rintro ⟨c, ha, -, hc⟩
    exact transGen_of_chain hc ha ha

theorem chain_of_chain {other : α → α → Prop} {c : Cycle α} (hc : c.Chain arrow)
    (h : ∀ a ∈ c, ∀ b ∈ c, arrow a b → other a b) : c.Chain other := by
  induction c with
  | nil => trivial
  | cons a rest _ =>
      have hmem : ∀ x, x ∈ a :: (rest ++ [a]) → x ∈ ((a :: rest : List α) : Cycle α) := by
        simp [or_comm]
      rw [Cycle.chain_coe_cons] at hc ⊢
      exact hc.imp_of_mem_imp fun x y hx hy => h x (hmem x hx) y (hmem y hy)

end Paths

namespace Graph

variable {α : Type} [Ord α]

/-- A round of different nodes, each of which is left and leads to the next. -/
structure Circuit (g : Graph α) (gone : Marks) (c : Cycle Nat) : Prop where
  nodup : c.Nodup
  leads : c.Chain fun i j => g.hasArrow i j = true
  left : ∀ i ∈ c, gone.has i = false

theorem WellFormed.cyclic_iff_exists_circuit {g : Graph α} (h : g.WellFormed) (gone : Marks)
    (i : Nat) : g.arrows.Cyclic gone i ↔ ∃ c : Cycle Nat, i ∈ c ∧ g.Circuit gone c := by
  rw [Arrows.Cyclic, transGen_self_iff_exists_chain]
  constructor
  · rintro ⟨c, hi, hnodup, hc⟩
    exact ⟨c, hi, hnodup, hc.imp fun j k hjk => (h.hasArrow_iff j k).mpr hjk.2.2,
      fun j hj => Arrows.Cyclic.left (transGen_of_chain hc hj hj)⟩
  · rintro ⟨c, hi, hc⟩
    exact ⟨c, hi, hc.nodup, chain_of_chain hc.leads fun j hj k hk hjk =>
      ⟨hc.left j hj, hc.left k hk, (h.hasArrow_iff j k).mp hjk⟩⟩

/-- In every graph that can be built, and whatever nodes are gone, each node on a circuit of nodes
that are left is found once, and no other node is. -/
theorem cycleMembers_built [Std.TransOrd α] [Std.LawfulEqOrd α] (changes : List (GraphChange α))
    (gone : Marks) :
    let g := built changes
    (g.arrows.cycleMembers gone).Nodup
      ∧ ∀ i, i ∈ g.arrows.cycleMembers gone ↔ ∃ c : Cycle Nat, i ∈ c ∧ g.Circuit gone c := by
  intro g
  have wf : g.WellFormed := wellFormed_built changes
  refine ⟨Arrows.nodup_cycleMembers wf.arrows gone, fun i => ?_⟩
  rw [Arrows.mem_cycleMembers wf.arrows, wf.cyclic_iff_exists_circuit]

/-- One of two cycles has lost a node, and the node between them leads to itself. -/
theorem cycleMembers_built_loop :
    let g := built (twoCycles ++ [.addEdge 3 3])
    let gone := (Marks.none 7).add 4
    g.arrows.cycleMembers gone = [1, 2, 3] ∧ (g.arrows.cycleMembers gone).Nodup
      ∧ (∃ c : Cycle Nat, 3 ∈ c ∧ g.Circuit gone c)
      ∧ ¬ ∃ c : Cycle Nat, 5 ∈ c ∧ g.Circuit gone c := by
  intro g gone
  obtain ⟨nodup, mem⟩ := cycleMembers_built (twoCycles ++ [.addEdge 3 3]) gone
  have hfound : g.arrows.cycleMembers gone = [1, 2, 3] := by decide +kernel
  refine ⟨hfound, nodup, (mem 3).mp ?_, fun hc => ?_⟩
  · rw [hfound]
    decide
  · have hmem := (mem 5).mpr hc
    rw [hfound] at hmem
    exact absurd hmem (by decide)

end Graph

end Recalc
