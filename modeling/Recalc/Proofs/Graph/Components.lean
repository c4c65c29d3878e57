import Recalc.Proofs.Graph.Finishing

/-!
# The nodes on cycles

Gathering against the arrows, from the node finished last to the one finished first, finds one
component after the other. A component has a cycle when it has a second node, or an arrow from its
only node to itself; so the nodes found are exactly the nodes on cycles.
-/

namespace Recalc

open Relation

namespace Arrows

variable {arrows : Arrows} {gone : Marks}

/-! ## Arrows turned round -/

/-- Turn the arrows of one node round. -/
theorem mem_next_foldl_push (gone : Marks) (i : Nat) (targets : List Nat) (back : Arrows)
    (j k : Nat) :
    let turned := targets.foldl (fun back j =>
      if gone.has j then back else back.modify j (·.push i)) back
    turned.size = back.size ∧ (k ∈ Arrows.next turned j ↔ k ∈ back.next j ∨
      k = i ∧ j ∈ targets ∧ gone.has j = false ∧ j < back.size) := by
  induction targets generalizing back with
  | nil => simp
  | cons t rest ih =>
      by_cases ht : gone.has t = true
      · obtain ⟨hsize, hmem⟩ := ih back
        simp only [List.foldl_cons, ht, if_true]
        refine ⟨hsize, hmem.trans (or_congr_right ?_)⟩
        rw [List.mem_cons]
        constructor
        · exact fun ⟨hk, hj, h⟩ => ⟨hk, Or.inr hj, h⟩
        · rintro ⟨hk, rfl | hj, h⟩
          · exact absurd (ht.symm.trans h.1) (by simp)
          · exact ⟨hk, hj, h⟩
      · obtain ⟨hsize, hmem⟩ := ih (back.modify t (·.push i))
        simp only [List.foldl_cons, ht, Bool.false_eq_true, if_false]
        refine ⟨by simpa using hsize, hmem.trans ?_⟩
        rw [next_modify_push, List.mem_cons, Array.size_modify]
        by_cases htj : t = j
        · subst htj
          by_cases hlt : t < back.size
          · by_cases hk : k = i <;> simp [hlt, ht, hk]
          · simp [hlt]
        · simp [htj, Ne.symm htj]

theorem mem_next_foldl_reverse (arrows : Arrows) (gone : Marks) (sources : List Nat)
    (back : Arrows) (j k : Nat) :
    let turned := sources.foldl (fun back i =>
      if gone.has i then back
      else (arrows.next i).foldl (fun back j =>
        if gone.has j then back else back.modify j (·.push i)) back) back
    turned.size = back.size ∧ (k ∈ Arrows.next turned j ↔ k ∈ back.next j ∨
      k ∈ sources ∧ arrows.Live gone k j ∧ j < back.size) := by
  induction sources generalizing back with
  | nil => simp
  | cons i rest ih =>
      by_cases hi : gone.has i = true
      · obtain ⟨hsize, hmem⟩ := ih back
        simp only [List.foldl_cons, hi, if_true]
        refine ⟨hsize, hmem.trans (or_congr_right ?_)⟩
        rw [List.mem_cons]
        constructor
        · exact fun ⟨hk, h⟩ => ⟨Or.inr hk, h⟩
        · rintro ⟨rfl | hk, h⟩
          · exact absurd (hi.symm.trans h.1.1) (by simp)
          · exact ⟨hk, h⟩
      · obtain ⟨hsize, hmem⟩ := ih ((arrows.next i).foldl (fun back j =>
          if gone.has j then back else back.modify j (·.push i)) back)
        obtain ⟨hsize', hmem'⟩ := mem_next_foldl_push gone i (arrows.next i) back j k
        simp only [List.foldl_cons, hi, Bool.false_eq_true, if_false]
        refine ⟨hsize.trans hsize', hmem.trans ?_⟩
        rw [hmem', hsize', List.mem_cons, or_assoc]
        apply or_congr_right
        have hi' : gone.has i = false := by simpa using hi
        constructor
        · rintro (⟨rfl, hj, hleft, hlt⟩ | ⟨hk, h⟩)
          · exact ⟨Or.inl rfl, ⟨hi', hleft, hj⟩, hlt⟩
          · exact ⟨Or.inr hk, h⟩
        · rintro ⟨rfl | hk, ⟨hl, hl', hj⟩, hlt⟩
          · exact Or.inl ⟨rfl, hj, hl', hlt⟩
          · exact Or.inr ⟨hk, ⟨hl, hl', hj⟩, hlt⟩

/-- The arrows turned round lead from each node to the nodes that lead to it. -/
theorem mem_next_reversed (wf : arrows.WellFormed) (gone : Marks) (j k : Nat) :
    k ∈ (arrows.reversed gone).next j ↔ arrows.Live gone k j := by
  obtain ⟨-, hmem⟩ := mem_next_foldl_reverse arrows gone (List.range arrows.size)
    (Array.replicate arrows.size #[]) j k
  apply hmem.trans
  have hempty : Arrows.next (Array.replicate arrows.size #[]) j = [] := by
    by_cases hj : j < arrows.size <;> simp [Arrows.next, hj]
  rw [hempty, Array.size_replicate, List.mem_range]
  constructor
  · rintro (h | ⟨_, h, _⟩)
    · cases h
    · exact h
  · intro h
    exact Or.inr ⟨lt_size_of_mem_next h.2.2, h, wf.bounded h.2.2⟩

/-! ## Gathering a component -/

/-- A component while it is gathered against the arrows: `before` holds the nodes of the components
found earlier. -/
structure Gathered (arrows : Arrows) (gone before : Marks) (root : Nat) (s : Gathering) :
    Prop where
  size : s.assigned.size = arrows.size
  assigned : ∀ i, s.assigned.has i = true ↔ before.has i = true ∨ i ∈ s.members.toList
  fresh : ∀ i ∈ s.members.toList, before.has i = false
  nodup : s.members.toList.Nodup
  hasRoot : root ∈ s.members.toList
  reaches : ∀ i ∈ s.members.toList, arrows.Reaches gone i root
  pending : ∀ i ∈ s.pending, i ∈ s.members.toList
  closed : ∀ i ∈ s.members.toList, i ∉ s.pending →
    ∀ j, arrows.Live gone j i → s.assigned.has j = true

section

variable {before : Marks} {root : Nat}

/-- A node that is not assigned yet and leads to the node `current`, which is followed, joins the
component and waits to be followed. -/
theorem Gathered.join {s : Gathering} {current j : Nat}
    (h : Gathered arrows gone before root { s with pending := current :: s.pending })
    (hj : arrows.Live gone j current) (hlt : j < arrows.size) (hnew : s.assigned.has j = false) :
    Gathered arrows gone before root
      ⟨current :: j :: s.pending, s.assigned.add j, s.members.push j⟩ := by
  have hsize : s.assigned.size = arrows.size := h.size
  have hassigned : ∀ i, s.assigned.has i = true ↔ before.has i = true ∨ i ∈ s.members.toList :=
    h.assigned
  have hcurrent : current ∈ s.members.toList := h.pending current List.mem_cons_self
  obtain ⟨hbefore, hmember⟩ : ¬ before.has j = true ∧ j ∉ s.members.toList :=
    not_or.mp fun hor => Bool.eq_false_iff.mp hnew ((hassigned j).mpr hor)
  have hmem : ∀ i, i ∈ (s.members.push j).toList ↔ i ∈ s.members.toList ∨ i = j := by simp
  constructor
  case size => simpa using hsize
  case assigned =>
    intro i
    rw [Marks.has_add_iff, hassigned i, hmem, or_assoc]
    exact or_congr_right (or_congr_right
      ⟨fun hi => hi.1.symm, fun hi => ⟨hi.symm, hsize ▸ hlt⟩⟩)
  case fresh =>
    intro i hi
    rcases (hmem i).mp hi with hi | rfl
    · exact h.fresh i hi
    · exact Bool.eq_false_iff.mpr hbefore
  case nodup =>
    rw [Array.toList_push]
    exact List.nodup_append.mpr ⟨h.nodup, List.nodup_singleton j, fun a ha b hb hab =>
      hmember (List.mem_singleton.mp hb ▸ hab ▸ ha)⟩
  case hasRoot => exact (hmem root).mpr (Or.inl h.hasRoot)
  case reaches =>
    intro i hi
    rcases (hmem i).mp hi with hi | rfl
    · exact h.reaches i hi
    · exact ReflTransGen.head hj (h.reaches current hcurrent)
  case pending =>
    intro i hi
    rw [hmem]
    rcases List.mem_cons.mp hi with rfl | hi
    · exact Or.inl hcurrent
    rcases List.mem_cons.mp hi with rfl | hi
    · exact Or.inr rfl
    · exact Or.inl (h.pending i (List.mem_cons_of_mem _ hi))
  case closed =>
    intro i hi hp k hk
    obtain ⟨hcur, hrest⟩ := not_or.mp (fun hor => hp (List.mem_cons.mpr hor))
    obtain ⟨hne, hpending⟩ := not_or.mp (fun hor => hrest (List.mem_cons.mpr hor))
    have hold : i ∈ s.members.toList := ((hmem i).mp hi).resolve_right hne
    exact Marks.has_add_of_has j (h.closed i hold (by simp [hcur, hpending]) k hk)

/-- Meeting a node that leads to the component, while the node `current` is followed. -/
theorem Gathered.meet {s : Gathering} {current j : Nat}
    (h : Gathered arrows gone before root { s with pending := current :: s.pending })
    (hj : arrows.Live gone j current) (hlt : j < arrows.size) :
    Gathered arrows gone before root { s.meet j with pending := current :: (s.meet j).pending }
      ∧ (∀ i, s.assigned.has i = true → (s.meet j).assigned.has i = true)
      ∧ (s.meet j).assigned.has j = true
      ∧ (s.meet j).assigned.absent.card + (s.meet j).pending.length
        ≤ s.assigned.absent.card + s.pending.length := by
  have hsize : s.assigned.size = arrows.size := h.size
  by_cases hmet : s.assigned.has j = true
  · have hsame : s.meet j = s := by simp [Gathering.meet, hmet]
    rw [hsame]
    exact ⟨h, fun _ hi => hi, hmet, le_rfl⟩
  · have hnew : s.assigned.has j = false := Bool.eq_false_iff.mpr hmet
    have hmeet : s.meet j = ⟨j :: s.pending, s.assigned.add j, s.members.push j⟩ := by
      simp [Gathering.meet, hnew]
    have hcard := Marks.card_absent_add_lt (hsize ▸ hlt) hnew
    rw [hmeet]
    refine ⟨h.join hj hlt hnew, fun i hi => Marks.has_add_of_has j hi,
      Marks.has_add_self (hsize ▸ hlt), ?_⟩
    simp only [List.length_cons]
    omega

theorem Gathered.foldl_meet {current : Nat} (previous : List Nat)
    (hp : ∀ j ∈ previous, arrows.Live gone j current) (s : Gathering)
    (h : Gathered arrows gone before root { s with pending := current :: s.pending }) :
    let t := previous.foldl Gathering.meet s
    Gathered arrows gone before root { t with pending := current :: t.pending }
      ∧ (∀ i, s.assigned.has i = true → t.assigned.has i = true)
      ∧ (∀ j ∈ previous, t.assigned.has j = true)
      ∧ t.assigned.absent.card + t.pending.length
        ≤ s.assigned.absent.card + s.pending.length := by
  induction previous generalizing s with
  | nil => exact ⟨h, fun _ hi => hi, by simp, le_rfl⟩
  | cons j rest ih =>
      have hj := hp j List.mem_cons_self
      obtain ⟨h', kept, met, le⟩ := h.meet hj (lt_size_of_mem_next hj.2.2)
      obtain ⟨h'', kept', met', le'⟩ := ih (fun k hk => hp k (List.mem_cons_of_mem _ hk)) _ h'
      refine ⟨h'', fun i hi => kept' i (kept i hi), fun k hk => ?_, le'.trans le⟩
      rcases List.mem_cons.mp hk with rfl | hk
      · exact kept' _ met
      · exact met' k hk

/-- Gathering ends with nothing left to follow, if it may follow every node. -/
theorem Gathered.gather {back : Arrows} (hback : ∀ j k, k ∈ back.next j ↔ arrows.Live gone k j)
    (limit : Nat) {s : Gathering} (h : Gathered arrows gone before root s)
    (enough : s.assigned.absent.card + s.pending.length ≤ limit) :
    Gathered arrows gone before root (Arrows.gather back limit s)
      ∧ (Arrows.gather back limit s).pending = [] := by
  induction limit generalizing s with
  | zero =>
      have hnone : s.pending.length = 0 := by omega
      exact ⟨h, List.length_eq_zero_iff.mp hnone⟩
  | succ limit ih =>
      cases hpending : s.pending with
      | nil =>
          have hdone : Arrows.gather back (limit + 1) s = s := by
            simp only [Arrows.gather, hpending]
          rw [hdone]
          exact ⟨h, hpending⟩
      | cons node pending =>
          simp only [Arrows.gather, hpending]
          have hnode : Gathered arrows gone before root
              { s with pending := node :: pending } := hpending ▸ h
          obtain ⟨h', -, met, le⟩ :=
            Gathered.foldl_meet (back.next node) (fun j hj => (hback node j).mp hj)
              { s with pending } hnode
          refine ih ⟨h'.size, h'.assigned, h'.fresh, h'.nodup, h'.hasRoot, h'.reaches,
            fun i hi => h'.pending i (List.mem_cons_of_mem _ hi), fun i hi hp j hj => ?_⟩ ?_
          · by_cases hin : i = node
            · exact met j ((hback node j).mpr (hin ▸ hj))
            · exact h'.closed i hi (by simp [hin, hp]) j hj
          · rw [hpending, List.length_cons] at enough
            exact le.trans (Nat.le_of_lt_succ enough)

end

/-! ## One component after the other -/

theorem FinishingOrder.of_append {α : Type} {arrow : α → α → Prop} (later : List α)
    {earlier : List α} (h : FinishingOrder arrow (later ++ earlier)) :
    FinishingOrder arrow earlier := by
  induction later with
  | nil => exact h
  | cons _ _ ih => exact ih h.2

/-- What has been found once the components of `roots` have been gathered. -/
structure Found (arrows : Arrows) (gone : Marks) (roots : List Nat) (found : Marks × Array Nat) :
    Prop where
  size : found.1.size = arrows.size
  assigned : ∀ i, found.1.has i = true ↔ ∃ r ∈ roots, arrows.Joined gone i r
  mem_iff : ∀ i, i ∈ found.2.toList ↔ found.1.has i = true ∧ arrows.Cyclic gone i
  nodup : found.2.toList.Nodup

section

variable {later earlier : List Nat} {root : Nat} {found : Marks × Array Nat}

theorem gathered_start (h : Found arrows gone later found) (hlt : root < arrows.size)
    (hnew : found.1.has root = false) :
    Gathered arrows gone found.1 root ⟨[root], found.1.add root, #[root]⟩ := by
  refine ⟨by simpa using h.size, fun i => ?_, ?_, by simp, by simp, ?_, by simp, ?_⟩
  · rw [Marks.has_add_iff]
    simp only [List.mem_singleton]
    exact or_congr_right ⟨fun hi => hi.1.symm, fun hi => ⟨hi.symm, h.size ▸ hlt⟩⟩
  · simpa using hnew
  · intro i hi
    exact List.mem_singleton.mp hi ▸ ReflTransGen.refl
  · intro i hi hp
    exact absurd hi hp

/-- What has been gathered from a root is its component. -/
theorem mem_members_iff (finishes : Finishes arrows gone (later ++ root :: earlier))
    (h : Found arrows gone later found) (hnew : found.1.has root = false) {s : Gathering}
    (gathered : Gathered arrows gone found.1 root s) (hdone : s.pending = []) (i : Nat) :
    i ∈ s.members.toList ↔ arrows.Joined gone i root := by
  have hroot : root < arrows.size ∧ gone.has root = false :=
    (finishes.mem_iff root).mp (by simp)
  constructor
  · intro hi
    have path := gathered.reaches i hi
    have hlate : ∀ r ∈ later, ¬ arrows.Joined gone i r := fun r hr hir =>
      Bool.eq_false_iff.mp (gathered.fresh i hi) ((h.assigned i).mpr ⟨r, hr, hir⟩)
    have hmem : i ∈ later ++ root :: earlier :=
      (finishes.mem_iff i).mpr ⟨Reaches.lt_size path hroot.1, Reaches.left path hroot.2⟩
    rcases List.mem_append.mp hmem with hi' | hi'
    · exact absurd (Joined.refl i) (hlate i hi')
    rcases List.mem_cons.mp hi' with rfl | hi'
    · exact Joined.refl i
    -- a node finished earlier has a node of its component that is not, and that is the root
    have horder : FinishingOrder (arrows.Live gone) earlier :=
      FinishingOrder.of_append (later ++ [root]) (by simpa using finishes.order)
    have hout : root ∉ earlier :=
      (List.nodup_cons.mp (List.nodup_append.mp finishes.nodup).2.1).1
    obtain ⟨w, hw, hiw, hwi⟩ := horder.exists_unfinished hi' hout path
    have hwroot : arrows.Reaches gone w root := hwi.trans path
    have hwmem := (finishes.mem_iff w).mpr
      ⟨Reaches.lt_size hwroot hroot.1, Reaches.left hwroot hroot.2⟩
    rcases List.mem_append.mp hwmem with hw' | hw'
    · exact absurd ⟨hiw, hwi⟩ (hlate w hw')
    rcases List.mem_cons.mp hw' with rfl | hw'
    · exact ⟨hiw, hwi⟩
    · exact absurd hw' hw
  · intro hi
    have hfresh : ∀ j, arrows.Joined gone j root → ¬ found.1.has j = true := by
      intro j hj hold
      obtain ⟨r, hr, hjr⟩ := (h.assigned j).mp hold
      exact Bool.eq_false_iff.mp hnew ((h.assigned root).mpr ⟨r, hr, hj.symm.trans hjr⟩)
    obtain ⟨path, back⟩ := hi
    induction path using ReflTransGen.head_induction_on with
    | refl => exact gathered.hasRoot
    | @head j k hjk hk ih =>
        have hkmem := ih (back.tail hjk)
        have hassigned := gathered.closed k hkmem (by simp [hdone]) j hjk
        exact ((gathered.assigned j).mp hassigned).resolve_left
          (hfresh j ⟨ReflTransGen.head hjk hk, back⟩)

/-- A component with a second node or with an arrow from a node to itself has a cycle through each
of its nodes; another component has none. -/
theorem isCycle_iff {members : Array Nat} (hleft : gone.has root = false)
    (nodup : members.toList.Nodup)
    (hmem : ∀ i, i ∈ members.toList ↔ arrows.Joined gone i root) {i : Nat}
    (hi : i ∈ members.toList) :
    arrows.isCycle root members = true ↔ arrows.Cyclic gone i := by
  have hroot : root ∈ members.toList := (hmem root).mpr (Joined.refl root)
  have hcard : members.toList.toFinset.card = members.size := by
    rw [List.toFinset_card_of_nodup nodup, Array.length_toList]
  simp only [isCycle, Bool.or_eq_true, decide_eq_true_eq, List.contains_iff_mem]
  constructor
  · rintro (hsize | hloop)
    · rw [← hcard] at hsize
      obtain ⟨j, hj, hne⟩ := Finset.exists_mem_ne hsize i
      have hij := ((hmem i).mp hi).trans ((hmem j).mp (List.mem_toFinset.mp hj)).symm
      rcases reflTransGen_iff_eq_or_transGen.mp hij.1 with heq | hpath
      · exact absurd heq hne
      · exact hpath.trans_left hij.2
    · obtain ⟨there, back⟩ := (hmem i).mp hi
      exact (TransGen.tail' there ⟨hleft, hleft, hloop⟩).trans_left back
  · intro hcycle
    by_cases hsize : 1 < members.size
    · exact Or.inl hsize
    · right
      have hone : ∀ j ∈ members.toList, j = root := by
        intro j hj
        rw [← hcard, not_lt, Finset.card_le_one] at hsize
        exact hsize j (List.mem_toFinset.mpr hj) root (List.mem_toFinset.mpr hroot)
      obtain ⟨j, hij, hj⟩ := Cyclic.exists_next hcycle
      have hjmem := (hmem j).mpr (hj.symm.trans ((hmem i).mp hi))
      rw [hone i hi, hone j hjmem] at hij
      exact hij.2.2

/-- A root that belongs to a component found earlier brings no other. -/
theorem Found.of_has (h : Found arrows gone later found) (hold : found.1.has root = true) :
    Found arrows gone (later ++ [root]) found where
  size := h.size
  assigned i := by
    obtain ⟨r, hr, hroot⟩ := (h.assigned root).mp hold
    rw [h.assigned i]
    constructor
    · exact fun ⟨r, hr, hir⟩ => ⟨r, List.mem_append_left _ hr, hir⟩
    · rintro ⟨r', hr', hir⟩
      rcases List.mem_append.mp hr' with hr' | hr'
      · exact ⟨r', hr', hir⟩
      · exact ⟨r, hr, (List.mem_singleton.mp hr' ▸ hir).trans hroot⟩
  mem_iff := h.mem_iff
  nodup := h.nodup

/-- The component of a root that belongs to none found earlier is found, and its nodes are listed if
it is a cycle. -/
theorem Found.component (h : Found arrows gone later found) (hleft : gone.has root = false)
    {s : Gathering} (gathered : Gathered arrows gone found.1 root s)
    (hmem : ∀ i, i ∈ s.members.toList ↔ arrows.Joined gone i root) :
    Found arrows gone (later ++ [root])
      (s.assigned, if arrows.isCycle root s.members then found.2 ++ s.members else found.2) where
  size := gathered.size
  assigned i := by
    rw [gathered.assigned i, h.assigned i, hmem i]
    simp only [List.mem_append, List.mem_singleton, or_and_right, exists_or, exists_eq_left]
  mem_iff i := by
    rw [gathered.assigned i, or_and_right, ← h.mem_iff i]
    split
    case isTrue hcycle =>
      rw [Array.toList_append, List.mem_append]
      exact or_congr_right (iff_self_and.mpr fun hi =>
        (isCycle_iff hleft gathered.nodup hmem hi).mp hcycle)
    case isFalse hcycle =>
      refine (or_iff_left fun hi => hcycle ?_).symm
      exact (isCycle_iff hleft gathered.nodup hmem hi.1).mpr hi.2
  nodup := by
    split
    case isTrue =>
      rw [Array.toList_append]
      refine List.nodup_append.mpr ⟨h.nodup, gathered.nodup, fun i hi j hj hij => ?_⟩
      exact Bool.eq_false_iff.mp (gathered.fresh j hj) (hij ▸ ((h.mem_iff i).mp hi).1)
    case isFalse => exact h.nodup

theorem found_gatherFrom (wf : arrows.WellFormed)
    (finishes : Finishes arrows gone (later ++ root :: earlier))
    (h : Found arrows gone later found) :
    Found arrows gone (later ++ [root])
      (arrows.gatherFrom (arrows.reversed gone) found root) := by
  have hroot : root < arrows.size ∧ gone.has root = false :=
    (finishes.mem_iff root).mp (by simp)
  by_cases hold : found.1.has root = true
  · simp only [gatherFrom, hold, if_true]
    exact h.of_has hold
  · have hnew : found.1.has root = false := Bool.eq_false_iff.mpr hold
    have henough : (found.1.add root).absent.card + [root].length ≤ arrows.size := by
      have := Marks.card_absent_add_lt (h.size ▸ hroot.1) hnew
      have := found.1.card_absent_le
      have := h.size
      simp only [List.length_singleton]
      omega
    obtain ⟨gathered, hdone⟩ :=
      (gathered_start h hroot.1 hnew).gather (mem_next_reversed wf gone) arrows.size henough
    simp only [gatherFrom, hnew, Bool.false_eq_true, if_false]
    exact h.component hroot.2 gathered (mem_members_iff finishes h hnew gathered hdone)

theorem found_foldl (wf : arrows.WellFormed) (roots : List Nat)
    (finishes : Finishes arrows gone (later ++ roots)) (h : Found arrows gone later found) :
    Found arrows gone (later ++ roots)
      (roots.foldl (arrows.gatherFrom (arrows.reversed gone)) found) := by
  induction roots generalizing later found with
  | nil => simpa using h
  | cons root rest ih =>
      have hsplit : later ++ root :: rest = (later ++ [root]) ++ rest := by simp
      rw [hsplit]
      exact ih (hsplit ▸ finishes) (found_gatherFrom wf finishes h)

theorem found_finished (wf : arrows.WellFormed) (gone : Marks) :
    Found arrows gone (arrows.finished gone)
      ((arrows.finished gone).foldl (arrows.gatherFrom (arrows.reversed gone))
        (Marks.none arrows.size, #[])) := by
  have hstart : Found arrows gone [] (Marks.none arrows.size, #[]) :=
    ⟨by simp, by simp, by simp, by simp⟩
  rw [← List.nil_append (arrows.finished gone)]
  exact found_foldl wf _ (finishes_finished wf gone) hstart

/-- Exactly the nodes on cycles of nodes that are left are found. -/
theorem mem_cycleMembers (wf : arrows.WellFormed) (gone : Marks) (i : Nat) :
    i ∈ arrows.cycleMembers gone ↔ arrows.Cyclic gone i := by
  have h := found_finished wf gone
  rw [cycleMembers, h.mem_iff i]
  refine and_iff_right_of_imp fun hcycle => (h.assigned i).mpr ⟨i, ?_, Joined.refl i⟩
  exact ((finishes_finished wf gone).mem_iff i).mpr ⟨Cyclic.lt_size hcycle, Cyclic.left hcycle⟩

theorem nodup_cycleMembers (wf : arrows.WellFormed) (gone : Marks) :
    (arrows.cycleMembers gone).Nodup := (found_finished wf gone).nodup

end

end Arrows

end Recalc
