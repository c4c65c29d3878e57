import Mathlib.Data.Finset.Card
import Mathlib.Data.Finset.Range
import Mathlib.Logic.Relation
import Recalc.Graph.Cycles

/-!
# Sets of nodes, and arrows between nodes that are left

Marks are sets of node numbers. When some nodes are gone, the arrows that count are those whose two
ends are left.
-/

namespace Recalc

namespace Marks

@[simp] theorem size_none (n : Nat) : (none n).size = n := by simp [none]

@[simp] theorem has_none (n i : Nat) : (none n).has i = false := by
  by_cases h : i < n <;> simp [none, has, h]

@[simp] theorem size_add (marks : Marks) (i : Nat) : (marks.add i).size = marks.size := by
  simp [add]

theorem lt_size_of_has {marks : Marks} {i : Nat} (h : marks.has i = true) : i < marks.size := by
  by_contra hi
  simp [has, Array.getD_eq_getD_getElem?, Array.getElem?_eq_none (Nat.le_of_not_lt hi)] at h

theorem has_add_iff (marks : Marks) (i j : Nat) :
    (marks.add i).has j = true ↔ marks.has j = true ∨ i = j ∧ i < marks.size := by
  simp only [add, has, Array.getD_eq_getD_getElem?, Array.getElem?_setIfInBounds]
  by_cases hij : i = j
  · subst hij
    by_cases hi : i < marks.size <;> simp [hi]
  · simp [hij]

theorem has_add_self {marks : Marks} {i : Nat} (hi : i < marks.size) :
    (marks.add i).has i = true := (has_add_iff marks i i).mpr (Or.inr ⟨rfl, hi⟩)

theorem has_add_of_has {marks : Marks} {i : Nat} (j : Nat) (h : marks.has i = true) :
    (marks.add j).has i = true := (has_add_iff marks j i).mpr (Or.inl h)

@[simp] theorem size_addAll (marks : Marks) (is : List Nat) :
    (marks.addAll is).size = marks.size := by
  induction is generalizing marks with
  | nil => rfl
  | cons i is ih => simpa [addAll] using ih (marks.add i)

theorem has_addAll_iff (marks : Marks) (is : List Nat) (j : Nat) :
    (marks.addAll is).has j = true ↔ marks.has j = true ∨ j ∈ is ∧ j < marks.size := by
  induction is generalizing marks with
  | nil => simp [addAll]
  | cons i is ih =>
      have h := ih (marks.add i)
      simp only [addAll, List.foldl_cons] at h ⊢
      rw [h, has_add_iff, size_add, List.mem_cons]
      constructor
      · rintro ((h | ⟨rfl, hi⟩) | ⟨h, hj⟩)
        · exact Or.inl h
        · exact Or.inr ⟨Or.inl rfl, hi⟩
        · exact Or.inr ⟨Or.inr h, hj⟩
      · rintro (h | ⟨rfl | h, hj⟩)
        · exact Or.inl (Or.inl h)
        · exact Or.inl (Or.inr ⟨rfl, hj⟩)
        · exact Or.inr ⟨h, hj⟩

/-- The nodes without a mark. -/
def absent (marks : Marks) : Finset Nat := (Finset.range marks.size).filter (marks.has · = false)

@[simp] theorem mem_absent {marks : Marks} {i : Nat} :
    i ∈ marks.absent ↔ i < marks.size ∧ marks.has i = false := by
  simp [absent]

theorem absent_subset {marks more : Marks} (size : more.size = marks.size)
    (h : ∀ i, marks.has i = true → more.has i = true) : more.absent ⊆ marks.absent := by
  intro i hi
  rw [mem_absent] at hi ⊢
  refine ⟨size ▸ hi.1, Bool.eq_false_iff.mpr fun hm => ?_⟩
  exact Bool.eq_false_iff.mp hi.2 (h i hm)

/-- A new mark leaves fewer nodes without one. -/
theorem card_absent_add_lt {marks : Marks} {i : Nat} (hi : i < marks.size)
    (h : marks.has i = false) : (marks.add i).absent.card < marks.absent.card := by
  apply Finset.card_lt_card
  refine ⟨absent_subset (size_add marks i) fun j hj => has_add_of_has i hj, fun hs => ?_⟩
  have hmem := mem_absent.mp (hs (mem_absent.mpr ⟨hi, h⟩))
  exact Bool.eq_false_iff.mp hmem.2 (has_add_self hi)

theorem card_absent_le (marks : Marks) : marks.absent.card ≤ marks.size :=
  (Finset.card_filter_le _ _).trans (Finset.card_range _).le

end Marks

namespace Arrows

/-- Arrows lead to nodes, and at most one leads from a node to another. -/
structure WellFormed (arrows : Arrows) : Prop where
  bounded : ∀ {i j : Nat}, j ∈ arrows.next i → j < arrows.size
  nodup : ∀ i : Nat, (arrows.next i).Nodup

theorem lt_size_of_mem_next {arrows : Arrows} {i j : Nat} (h : j ∈ arrows.next i) :
    i < arrows.size := by
  by_contra hi
  simp [next, Array.getD_eq_getD_getElem?, Array.getElem?_eq_none (Nat.le_of_not_lt hi)] at h

theorem next_modify (arrows : Arrows) (i k : Nat) (f : Array Nat → Array Nat) :
    Arrows.next (arrows.modify i f) k =
      if i = k ∧ k < arrows.size then (f (arrows.getD k #[])).toList else arrows.next k := by
  simp only [next, Array.getD_eq_getD_getElem?, Array.getElem?_modify]
  by_cases hk : k < arrows.size
  · by_cases hik : i = k <;> simp [hik, hk]
  · simp [hk]

theorem next_modify_push (arrows : Arrows) (i k x : Nat) :
    Arrows.next (arrows.modify i (·.push x)) k =
      if i = k ∧ k < arrows.size then arrows.next k ++ [x] else arrows.next k := by
  rw [next_modify]
  simp [next]

/-- An arrow both ends of which are left. -/
def Live (arrows : Arrows) (gone : Marks) (i j : Nat) : Prop :=
  gone.has i = false ∧ gone.has j = false ∧ j ∈ arrows.next i

/-- A path along arrows between nodes that are left. -/
abbrev Reaches (arrows : Arrows) (gone : Marks) : Nat → Nat → Prop :=
  Relation.ReflTransGen (arrows.Live gone)

/-- A path there and a path back. -/
def Joined (arrows : Arrows) (gone : Marks) (i j : Nat) : Prop :=
  arrows.Reaches gone i j ∧ arrows.Reaches gone j i

/-- A cycle of nodes that are left. -/
abbrev Cyclic (arrows : Arrows) (gone : Marks) (i : Nat) : Prop :=
  Relation.TransGen (arrows.Live gone) i i

/-- An arrow, whether its ends are left or not. -/
def Leads (arrows : Arrows) (i j : Nat) : Prop := j ∈ arrows.next i

/-- A cycle of any nodes. -/
abbrev OnCycle (arrows : Arrows) (i : Nat) : Prop := Relation.TransGen arrows.Leads i i

section

variable {arrows : Arrows} {gone : Marks} {i j k : Nat}

theorem Joined.refl (i : Nat) : arrows.Joined gone i i := ⟨.refl, .refl⟩

theorem Joined.symm (h : arrows.Joined gone i j) : arrows.Joined gone j i := ⟨h.2, h.1⟩

theorem Joined.trans (h : arrows.Joined gone i j) (h' : arrows.Joined gone j k) :
    arrows.Joined gone i k := ⟨h.1.trans h'.1, h'.2.trans h.2⟩

/-- Only a node that is left reaches another node. -/
theorem Reaches.left (h : arrows.Reaches gone i j) (hj : gone.has j = false) :
    gone.has i = false := by
  cases h.cases_head with
  | inl h => exact h ▸ hj
  | inr h =>
      obtain ⟨k, hik, _⟩ := h
      exact hik.1

theorem Reaches.lt_size (h : arrows.Reaches gone i j) (hj : j < arrows.size) :
    i < arrows.size := by
  cases h.cases_head with
  | inl h => exact h ▸ hj
  | inr h =>
      obtain ⟨k, hik, _⟩ := h
      exact lt_size_of_mem_next hik.2.2

theorem Cyclic.left (h : arrows.Cyclic gone i) : gone.has i = false := by
  obtain ⟨j, hij, -⟩ := Relation.TransGen.head'_iff.mp h
  exact hij.1

theorem Cyclic.lt_size (h : arrows.Cyclic gone i) : i < arrows.size := by
  obtain ⟨j, hij, -⟩ := Relation.TransGen.head'_iff.mp h
  exact lt_size_of_mem_next hij.2.2

/-- A node on a cycle is followed on it by a node that leads back. -/
theorem Cyclic.exists_next (h : arrows.Cyclic gone i) :
    ∃ j, arrows.Live gone i j ∧ arrows.Joined gone i j := by
  obtain ⟨j, hij, hji⟩ := Relation.TransGen.head'_iff.mp h
  exact ⟨j, hij, Relation.ReflTransGen.single hij, hji⟩

end

end Arrows

/-- A node on a cycle is led to by a node of the same cycle. -/
theorem exists_previous_on_cycle {α : Type} {arrow : α → α → Prop} {x : α}
    (h : Relation.TransGen arrow x x) : ∃ y, arrow y x ∧ Relation.TransGen arrow y y := by
  obtain ⟨y, hxy, hyx⟩ := Relation.TransGen.tail'_iff.mp h
  exact ⟨y, hyx, Relation.TransGen.head' hyx hxy⟩

end Recalc
