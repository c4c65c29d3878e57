import Recalc.Graph
import Recalc.Proofs.Graph.Arrows

/-!
# Graphs as they are built

The nodes of a graph are numbered without gaps, its arrows lead between numbered nodes, and the set
of arrows holds those that the nodes list. Every change keeps this, and it is said what each change
does to the edges between nodes.
-/

namespace Recalc

namespace Arrows

variable {arrows : Arrows} {i j : Nat}

theorem next_push (arrows : Arrows) (i : Nat) :
    Arrows.next (arrows.push #[]) i = arrows.next i := by
  simp only [Arrows.next, Array.getD_eq_getD_getElem?, Array.getElem?_push]
  by_cases hi : i = arrows.size <;> simp [hi]

theorem WellFormed.push (wf : arrows.WellFormed) : Arrows.WellFormed (arrows.push #[]) := by
  refine ⟨fun {i j} hij => ?_, fun i => ?_⟩
  · rw [next_push] at hij
    rw [Array.size_push]
    exact Nat.lt_succ_of_lt (wf.bounded hij)
  · rw [next_push]
    exact wf.nodup i

theorem leads_modify_push (hi : i < arrows.size) (j k l : Nat) :
    Leads (arrows.modify i (·.push j)) k l ↔ arrows.Leads k l ∨ k = i ∧ l = j := by
  rw [Leads, Leads, next_modify_push]
  by_cases hik : i = k
  · subst hik
    simp [hi]
  · simp [hik, Ne.symm hik]

theorem WellFormed.modify_push (wf : arrows.WellFormed) (hi : i < arrows.size)
    (hj : j < arrows.size) (hnew : j ∉ arrows.next i) :
    Arrows.WellFormed (arrows.modify i (·.push j)) := by
  refine ⟨fun {k l} hkl => ?_, fun k => ?_⟩
  · rw [Array.size_modify]
    rcases (leads_modify_push hi j k l).mp hkl with hkl | ⟨-, rfl⟩
    · exact wf.bounded hkl
    · exact hj
  · rw [next_modify_push]
    split
    · next hik =>
        obtain rfl := hik.1
        exact List.nodup_append.mpr ⟨wf.nodup i, List.nodup_singleton j, fun x hx y hy hxy =>
          hnew (List.mem_singleton.mp hy ▸ hxy ▸ hx)⟩
    · exact wf.nodup k

theorem next_modify_filter (arrows : Arrows) (i j k : Nat) :
    Arrows.next (arrows.modify i (·.filter (· != j))) k =
      if i = k ∧ k < arrows.size then (arrows.next k).filter (· != j) else arrows.next k := by
  rw [next_modify]
  simp [next]

theorem leads_modify_filter (arrows : Arrows) (i j k l : Nat) :
    Leads (arrows.modify i (·.filter (· != j))) k l ↔ arrows.Leads k l ∧ ¬(k = i ∧ l = j) := by
  rw [Leads, Leads, next_modify_filter]
  by_cases hik : i = k
  · subst hik
    by_cases hi : i < arrows.size
    · simp [hi]
    · have hnone : ∀ l, l ∉ arrows.next i := fun l hl => hi (lt_size_of_mem_next hl)
      simp [hi, hnone l]
  · simp [hik, Ne.symm hik]

theorem WellFormed.modify_filter (wf : arrows.WellFormed) (i j : Nat) :
    Arrows.WellFormed (arrows.modify i (·.filter (· != j))) := by
  refine ⟨fun {k l} hkl => ?_, fun k => ?_⟩
  · rw [Array.size_modify]
    exact wf.bounded ((leads_modify_filter arrows i j k l).mp hkl).1
  · rw [next_modify_filter]
    split
    · exact (wf.nodup k).filter _
    · exact wf.nodup k

end Arrows

/-- A change of a graph. -/
inductive GraphChange (α : Type) where
  | addNode (a : α)
  | addEdge (a b : α)
  | removeEdge (a b : α)
  | clear

namespace Graph

variable {α : Type} [Ord α]

/-- Make a change. An edge with an unknown end is refused and changes nothing. -/
def change (g : Graph α) : GraphChange α → Graph α
  | .addNode a => g.addNode a
  | .addEdge a b =>
      match g.addEdge a b with
      | .ok g => g
      | .error _ => g
  | .removeEdge a b => g.removeEdge a b
  | .clear => empty

/-- The graph that changes build, one after the other, from nothing. -/
def built (changes : List (GraphChange α)) : Graph α := changes.foldl change empty

/-- An edge between nodes. -/
def Edge (g : Graph α) (a b : α) : Prop := g.hasEdge a b = true

/-- The numbers and the arrows of a graph belong to its nodes, and its two records of the arrows
agree. -/
structure WellFormed (g : Graph α) : Prop where
  number?_iff : ∀ a i, g.number? a = some i ↔ g.nodes[i]? = some a
  size : g.arrows.size = g.nodes.size
  arrows : g.arrows.WellFormed
  hasArrow_iff : ∀ i j, g.hasArrow i j = true ↔ g.arrows.Leads i j

variable {g : Graph α}

theorem contains_iff (g : Graph α) (a : α) : g.contains a = true ↔ ∃ i, g.number? a = some i :=
  Option.isSome_iff_exists

/-- A component that is one node is a cycle when the set of arrows has the node's loop. -/
theorem WellFormed.isCycle_eq (h : g.WellFormed) (root : Nat) (members : Array Nat) :
    g.arrows.isCycle root members = (decide (1 < members.size) || g.hasArrow root root) := by
  have hloop : (g.arrows.next root).contains root = g.hasArrow root root := by
    rw [Bool.eq_iff_iff, List.contains_iff_mem, h.hasArrow_iff, Arrows.Leads]
  rw [Arrows.isCycle, hloop]

theorem WellFormed.index_unique (h : g.WellFormed) {a : α} {i j : Nat} (hi : g.nodes[i]? = some a)
    (hj : g.nodes[j]? = some a) : i = j :=
  Option.some.inj (((h.number?_iff a i).mpr hi).symm.trans ((h.number?_iff a j).mpr hj))

theorem WellFormed.mem_toList_iff (h : g.WellFormed) (a : α) :
    a ∈ g.toList ↔ g.contains a = true := by
  rw [contains_iff, toList, Array.mem_toList_iff, Array.mem_iff_getElem?]
  exact exists_congr fun i => (h.number?_iff a i).symm

theorem WellFormed.nodup_toList (h : g.WellFormed) : g.toList.Nodup := by
  rw [List.nodup_iff_getElem?_ne_getElem?]
  intro i j hij hj heq
  rw [toList, Array.getElem?_toList, Array.getElem?_toList] at heq
  rw [toList, Array.length_toList] at hj
  have hj' := (h.number?_iff _ j).mpr (Array.getElem?_eq_getElem hj)
  have hi' := (h.number?_iff _ i).mpr (heq.trans (Array.getElem?_eq_getElem hj))
  have hsame : i = j := Option.some.inj (hi'.symm.trans hj')
  omega

theorem WellFormed.lt_size (h : g.WellFormed) {a : α} {i : Nat} (hi : g.nodes[i]? = some a) :
    i < g.arrows.size := h.size ▸ (Array.getElem?_eq_some_iff.mp hi).1

theorem hasEdge_eq {a b : α} {i j : Nat} (hi : g.number? a = some i) (hj : g.number? b = some j) :
    g.hasEdge a b = g.hasArrow i j := by
  simp [hasEdge, hi, hj]

theorem WellFormed.edge_iff (h : g.WellFormed) (a b : α) :
    g.Edge a b ↔ ∃ i j, g.nodes[i]? = some a ∧ g.nodes[j]? = some b ∧ g.arrows.Leads i j := by
  simp only [← h.number?_iff]
  rw [Edge]
  constructor
  · intro hedge
    cases hi : g.number? a with
    | none => simp [hasEdge, hi] at hedge
    | some i =>
        cases hj : g.number? b with
        | none => simp [hasEdge, hi, hj] at hedge
        | some j =>
            rw [hasEdge_eq hi hj, h.hasArrow_iff] at hedge
            exact ⟨i, j, rfl, rfl, hedge⟩
  · rintro ⟨i, j, hi, hj, hij⟩
    rwa [hasEdge_eq hi hj, h.hasArrow_iff]

theorem mem_named_iff (g : Graph α) (is : List Nat) (a : α) :
    a ∈ g.named is ↔ ∃ i ∈ is, g.nodes[i]? = some a := List.mem_filterMap

theorem dependents_eq {a : α} {i : Nat} (hi : g.number? a = some i) :
    g.dependents a = g.named (g.arrows.next i) := by
  simp [dependents, hi]

theorem dependents_of_not_contains {a : α} (ha : ¬g.contains a = true) : g.dependents a = [] := by
  rw [contains, Option.isSome_iff_ne_none, not_not] at ha
  simp [dependents, ha]

theorem WellFormed.mem_dependents_iff (h : g.WellFormed) (a b : α) :
    b ∈ g.dependents a ↔ g.Edge a b := by
  rw [h.edge_iff]
  by_cases ha : g.contains a = true
  · obtain ⟨i, hi⟩ := (contains_iff g a).mp ha
    rw [dependents_eq hi, mem_named_iff]
    constructor
    · rintro ⟨j, hij, hj⟩
      exact ⟨i, j, (h.number?_iff a i).mp hi, hj, hij⟩
    · rintro ⟨i', j, hi', hj, hij⟩
      obtain rfl := h.index_unique ((h.number?_iff a i).mp hi) hi'
      exact ⟨j, hij, hj⟩
  · rw [dependents_of_not_contains ha]
    refine iff_of_false List.not_mem_nil ?_
    rintro ⟨i, -, hi, -⟩
    exact ha ((contains_iff g a).mpr ⟨i, (h.number?_iff a i).mpr hi⟩)

/-! ## Adding a node -/

theorem addNode_of_contains {a : α} (ha : g.contains a = true) : g.addNode a = g := by
  rw [addNode, insertNode, if_pos ha]

theorem addNode_of_new {a : α} (ha : g.contains a = false) :
    g.addNode a = { g with
      nodes := g.nodes.push a
      numbers := g.numbers.insert a g.nodes.size
      arrows := g.arrows.push #[] } := by
  rw [addNode, insertNode, ha]
  rfl

theorem toList_addNode {a : α} (ha : g.contains a = false) :
    (g.addNode a).toList = g.toList ++ [a] := by
  simp [addNode_of_new ha, toList]

theorem named_addNode (g : Graph α) (a : α) {is : List Nat} (his : ∀ i ∈ is, i < g.nodes.size) :
    (g.addNode a).named is = g.named is := by
  cases ha : g.contains a with
  | true => rw [addNode_of_contains ha]
  | false =>
      rw [addNode_of_new ha]
      refine List.filterMap_congr fun i hi => ?_
      rw [Array.getElem?_push, if_neg (his i hi).ne]

theorem hasArrow_addNode (g : Graph α) (a : α) (i j : Nat) :
    (g.addNode a).hasArrow i j = g.hasArrow i j := by
  cases ha : g.contains a with
  | true => rw [addNode_of_contains ha]
  | false => rw [addNode_of_new ha, hasArrow, hasArrow]

theorem next_addNode (g : Graph α) (a : α) (i : Nat) :
    (g.addNode a).arrows.next i = g.arrows.next i := by
  cases ha : g.contains a with
  | true => rw [addNode_of_contains ha]
  | false => rw [addNode_of_new ha, Arrows.next_push]

variable [Std.TransOrd α]

theorem wellFormed_empty : (empty : Graph α).WellFormed := by
  refine ⟨fun a i => ?_, rfl, ⟨fun h => ?_, fun i => ?_⟩, fun i j => ?_⟩
  · simp [empty, number?]
  · exact absurd (Arrows.lt_size_of_mem_next h) (Nat.not_lt_zero _)
  · simp [empty, Arrows.next]
  · simp [empty, hasArrow, Arrows.Leads, Arrows.next]

theorem number?_addNode_self {a : α} (ha : g.contains a = false) :
    (g.addNode a).number? a = some g.nodes.size := by
  simp [addNode_of_new ha, number?]

variable [Std.LawfulEqOrd α]

theorem number?_addNode_of_ne {a b : α} (hb : a ≠ b) : (g.addNode a).number? b = g.number? b := by
  by_cases ha : g.contains a = true
  · rw [addNode_of_contains ha]
  · have hcompare : compare a b ≠ .eq := fun h => hb (Std.LawfulEqOrd.compare_eq_iff_eq.mp h)
    simp [addNode_of_new (Bool.eq_false_iff.mpr ha), number?, Std.TreeMap.getElem?_insert, hcompare]

theorem contains_addNode (g : Graph α) (a b : α) :
    (g.addNode a).contains b = true ↔ g.contains b = true ∨ b = a := by
  by_cases hab : b = a
  · subst hab
    refine iff_of_true ?_ (Or.inr rfl)
    by_cases hb : g.contains b = true
    · rwa [addNode_of_contains hb]
    · rw [contains, number?_addNode_self (by simpa using hb)]
      rfl
  · rw [contains, number?_addNode_of_ne (Ne.symm hab), or_iff_left hab]
    exact Iff.rfl

theorem WellFormed.addNode (h : g.WellFormed) (a : α) : (g.addNode a).WellFormed := by
  by_cases ha : g.contains a = true
  · rwa [addNode_of_contains ha]
  have hnew : ∀ i, g.nodes[i]? ≠ some a := fun i hi =>
    ha ((contains_iff g a).mpr ⟨i, (h.number?_iff a i).mpr hi⟩)
  have hgraph := addNode_of_new (Bool.eq_false_iff.mpr ha)
  have hnodes : (g.addNode a).nodes = g.nodes.push a := by rw [hgraph]
  have harrows : (g.addNode a).arrows = g.arrows.push #[] := by rw [hgraph]
  refine ⟨fun b i => ?_, by simp [hnodes, harrows, h.size], harrows ▸ h.arrows.push, fun i j => ?_⟩
  case refine_2 => rw [hasArrow_addNode, Arrows.Leads, next_addNode, h.hasArrow_iff, Arrows.Leads]
  rw [hnodes, Array.getElem?_push]
  by_cases hb : a = b
  · subst hb
    rw [number?_addNode_self (by simpa using ha)]
    by_cases hi : i = g.nodes.size
    · rw [if_pos hi, hi]
      exact iff_of_true rfl rfl
    · rw [if_neg hi]
      exact iff_of_false (fun heq => hi (Option.some.inj heq).symm) (hnew i)
  · rw [number?_addNode_of_ne hb, h.number?_iff b i]
    by_cases hi : i = g.nodes.size
    · rw [if_pos hi, hi, Array.getElem?_eq_none (Nat.le_refl _)]
      exact iff_of_false nofun fun heq => hb (Option.some.inj heq)
    · rw [if_neg hi]

theorem WellFormed.edge_addNode (h : g.WellFormed) (a b c : α) :
    (g.addNode a).Edge b c ↔ g.Edge b c := by
  by_cases ha : g.contains a = true
  · rw [addNode_of_contains ha]
  have hnodes : (g.addNode a).nodes = g.nodes.push a := by
    rw [addNode_of_new (Bool.eq_false_iff.mpr ha)]
  have hsize : g.arrows.size = g.nodes.size := h.size
  rw [(h.addNode a).edge_iff, h.edge_iff, hnodes]
  refine exists_congr fun i => exists_congr fun j => ?_
  rw [Arrows.Leads, next_addNode, Array.getElem?_push, Array.getElem?_push]
  by_cases hij : j ∈ g.arrows.next i
  · have hi : i ≠ g.nodes.size := by
      have := Arrows.lt_size_of_mem_next hij
      omega
    have hj : j ≠ g.nodes.size := by
      have := h.arrows.bounded hij
      omega
    rw [if_neg hi, if_neg hj, Arrows.Leads]
  · exact iff_of_false (fun hall => hij hall.2.2) fun hall => hij hall.2.2

/-! ## Adding and removing an arrow -/

omit [Std.TransOrd α] [Std.LawfulEqOrd α]

section Arrow

variable {i j : Nat}

theorem hasArrow_addArrow (g : Graph α) (i j k l : Nat) :
    (g.addArrow i j).hasArrow k l = true ↔ g.hasArrow k l = true ∨ k = i ∧ l = j := by
  rw [addArrow]
  split
  · next hold =>
      refine ⟨Or.inl, fun h => h.elim id ?_⟩
      rintro ⟨rfl, rfl⟩
      exact hold
  · simp only [hasArrow, Std.TreeSet.contains_insert, Bool.or_eq_true, beq_iff_eq,
      Std.LawfulEqOrd.compare_eq_iff_eq, Arrow.mk.injEq]
    rw [or_comm, @eq_comm _ i, @eq_comm _ j]

theorem hasArrow_takeArrow (g : Graph α) (i j k l : Nat) :
    (g.takeArrow i j).2.hasArrow k l = true ↔ g.hasArrow k l = true ∧ ¬(k = i ∧ l = j) := by
  rw [takeArrow]
  split
  · simp only [hasArrow, Std.TreeSet.contains_erase, Bool.and_eq_true, bne_iff_ne, ne_eq,
      Std.LawfulEqOrd.compare_eq_iff_eq, Arrow.mk.injEq]
    rw [and_comm, @eq_comm _ i, @eq_comm _ j]
  · next hold =>
      refine ⟨fun h => ⟨h, ?_⟩, And.left⟩
      rintro ⟨rfl, rfl⟩
      exact hold h

theorem nodes_addArrow (g : Graph α) (i j : Nat) : (g.addArrow i j).nodes = g.nodes := by
  rw [addArrow]
  split <;> rfl

theorem numbers_addArrow (g : Graph α) (i j : Nat) : (g.addArrow i j).numbers = g.numbers := by
  rw [addArrow]
  split <;> rfl

theorem nodes_takeArrow (g : Graph α) (i j : Nat) : (g.takeArrow i j).2.nodes = g.nodes := by
  rw [takeArrow]
  split <;> rfl

theorem numbers_takeArrow (g : Graph α) (i j : Nat) : (g.takeArrow i j).2.numbers = g.numbers := by
  rw [takeArrow]
  split <;> rfl

namespace WellFormed

theorem addArrow (h : g.WellFormed) (hi : i < g.arrows.size) (hj : j < g.arrows.size) :
    (g.addArrow i j).WellFormed := by
  by_cases hold : g.hasArrow i j = true
  · rwa [Graph.addArrow, if_pos hold]
  have hnew : j ∉ g.arrows.next i := fun hmem => hold ((h.hasArrow_iff i j).mpr hmem)
  have harrows : (g.addArrow i j).arrows = g.arrows.modify i (·.push j) := by
    rw [Graph.addArrow, if_neg hold]
  refine ⟨fun a k => ?_, ?_, ?_, fun k l => ?_⟩
  · rw [number?, numbers_addArrow, nodes_addArrow]
    exact h.number?_iff a k
  · rw [harrows, Array.size_modify, nodes_addArrow, h.size]
  · exact harrows ▸ h.arrows.modify_push hi hj hnew
  · rw [hasArrow_addArrow, harrows, Arrows.leads_modify_push hi, h.hasArrow_iff]

theorem takeArrow (h : g.WellFormed) (i j : Nat) : (g.takeArrow i j).2.WellFormed := by
  by_cases hold : g.hasArrow i j = true
  case neg => rwa [Graph.takeArrow, if_neg hold]
  have harrows : (g.takeArrow i j).2.arrows = g.arrows.modify i (·.filter (· != j)) := by
    rw [Graph.takeArrow, if_pos hold]
  refine ⟨fun a k => ?_, ?_, ?_, fun k l => ?_⟩
  · rw [number?, numbers_takeArrow, nodes_takeArrow]
    exact h.number?_iff a k
  · rw [harrows, Array.size_modify, nodes_takeArrow, h.size]
  · exact harrows ▸ h.arrows.modify_filter i j
  · rw [hasArrow_takeArrow, harrows, Arrows.leads_modify_filter, h.hasArrow_iff]

end WellFormed

end Arrow

/-! ## Adding and removing an edge -/

theorem numberOf_eq_ok {a : α} {i : Nat} (hi : g.number? a = some i) :
    g.numberOf a = .ok i := by
  simp [numberOf, hi]

theorem addEdge_eq_ok {a b : α} {i j : Nat} (hi : g.number? a = some i)
    (hj : g.number? b = some j) : g.addEdge a b = .ok (g.addArrow i j) := by
  rw [addEdge, numberOf_eq_ok hi, numberOf_eq_ok hj]
  rfl

theorem takeEdge_eq {a b : α} {i j : Nat} (hi : g.number? a = some i)
    (hj : g.number? b = some j) : g.takeEdge a b = g.takeArrow i j := by
  simp [takeEdge, hi, hj]

/-- Where two numbered nodes stand beside a property of their numbers, the numbers are theirs. -/
theorem exists_numbers_iff {a b : α} {i j : Nat}
    (hi : g.nodes[i]? = some a) (hj : g.nodes[j]? = some b) (c d : α) :
    (∃ k l, g.nodes[k]? = some c ∧ g.nodes[l]? = some d ∧ k = i ∧ l = j) ↔ c = a ∧ d = b := by
  constructor
  · rintro ⟨k, l, hk, hl, rfl, rfl⟩
    exact ⟨Option.some.inj (hk.symm.trans hi), Option.some.inj (hl.symm.trans hj)⟩
  · rintro ⟨rfl, rfl⟩
    exact ⟨i, j, hi, hj, rfl, rfl⟩

/-- An edge between two nodes can be added, and nothing else changes. -/
theorem WellFormed.addEdge (h : g.WellFormed) {a b : α} (ha : g.contains a = true)
    (hb : g.contains b = true) :
    ∃ g', g.addEdge a b = .ok g' ∧ g'.WellFormed ∧ g'.nodes = g.nodes
      ∧ g'.numbers = g.numbers ∧ ∀ c d, g'.Edge c d ↔ g.Edge c d ∨ c = a ∧ d = b := by
  obtain ⟨i, hi⟩ := (contains_iff g a).mp ha
  obtain ⟨j, hj⟩ := (contains_iff g b).mp hb
  have hai := (h.number?_iff a i).mp hi
  have hbj := (h.number?_iff b j).mp hj
  have h' := h.addArrow (h.lt_size hai) (h.lt_size hbj)
  refine ⟨g.addArrow i j, addEdge_eq_ok hi hj, h', nodes_addArrow g i j, numbers_addArrow g i j,
    fun c d => ?_⟩
  rw [h'.edge_iff, h.edge_iff, nodes_addArrow, ← exists_numbers_iff hai hbj c d, ← exists_or]
  apply exists_congr
  intro k
  rw [← exists_or]
  apply exists_congr
  intro l
  rw [← h'.hasArrow_iff, hasArrow_addArrow, h.hasArrow_iff, and_or_left, and_or_left]

theorem numberOf_eq_error {a : α} (ha : ¬g.contains a = true) : g.numberOf a = .error ⟨a⟩ := by
  rw [contains, Option.isSome_iff_ne_none, not_not] at ha
  simp [numberOf, ha]

theorem addEdge_of_unknown_source {a : α} (ha : ¬g.contains a = true) (b : α) :
    g.addEdge a b = .error ⟨a⟩ := by
  rw [addEdge, numberOf_eq_error ha]
  rfl

theorem addEdge_of_unknown_target {a b : α} (ha : g.contains a = true)
    (hb : ¬g.contains b = true) : g.addEdge a b = .error ⟨b⟩ := by
  obtain ⟨i, hi⟩ := (contains_iff g a).mp ha
  rw [addEdge, numberOf_eq_ok hi, numberOf_eq_error hb]
  rfl

/-- An edge with an end that is no node is refused. -/
theorem addEdge_eq_error {a b : α} (hab : ¬(g.contains a = true ∧ g.contains b = true)) :
    ∃ e, g.addEdge a b = .error e := by
  by_cases ha : g.contains a = true
  · exact ⟨_, addEdge_of_unknown_target ha fun hb => hab ⟨ha, hb⟩⟩
  · exact ⟨_, addEdge_of_unknown_source ha b⟩

theorem WellFormed.removeEdge (h : g.WellFormed) (a b : α) : (g.removeEdge a b).WellFormed := by
  rw [Graph.removeEdge, takeEdge]
  split
  · exact h.takeArrow _ _
  · exact h

/-! ## Every graph that is built -/

variable [Std.TransOrd α] [Std.LawfulEqOrd α]

theorem WellFormed.change (h : g.WellFormed) (c : GraphChange α) : (g.change c).WellFormed := by
  cases c with
  | addNode a => exact h.addNode a
  | addEdge a b =>
      by_cases hab : g.contains a = true ∧ g.contains b = true
      · obtain ⟨g', hg', h', -⟩ := h.addEdge hab.1 hab.2
        simpa only [Graph.change, hg'] using h'
      · obtain ⟨e, he⟩ := addEdge_eq_error hab
        simpa only [Graph.change, he] using h
  | removeEdge a b => exact h.removeEdge a b
  | clear => exact wellFormed_empty

theorem wellFormed_built (changes : List (GraphChange α)) : (built changes).WellFormed := by
  suffices h : ∀ g : Graph α, g.WellFormed → (changes.foldl Graph.change g).WellFormed from
    h empty wellFormed_empty
  induction changes with
  | nil => exact fun g h => h
  | cons c rest ih => exact fun g h => ih (g.change c) (h.change c)

end Graph

end Recalc
