import Recalc.Proofs.Graph.Counting

/-!
# Graphs as lists

Whatever a graph tells could be read off two lists: its nodes, the last one added at the end, and
its edges, likewise. Nodes are never taken away one by one, so they stand in the order in which they
first came; an edge that is taken away and put back goes to the end.
-/

namespace Recalc

/-! ## Lists that grow at the end -/

section Entry

variable {γ β : Type}

/-- The change since which an element has been listed. -/
def ListedSince (listed : List γ → List β) (changes : List γ) (n : Nat) (x : β) : Prop :=
  n < changes.length ∧ x ∉ listed (changes.take n)
    ∧ ∀ m, n < m → m ≤ changes.length → x ∈ listed (changes.take m)

/-- Every element has been listed since some change, those further back since a later one. -/
def InOrderOfEntry (listed : List γ → List β) (changes : List γ) : Prop :=
  (∀ x ∈ listed changes, ∃ n, ListedSince listed changes n x)
    ∧ (listed changes).Pairwise fun x y => ∀ m n, ListedSince listed changes m x →
        ListedSince listed changes n y → m < n

variable {listed : List γ → List β} {changes : List γ} {c : γ} {n : Nat} {x : β}

theorem ListedSince.append (h : ListedSince listed changes n x)
    (hx : x ∈ listed (changes ++ [c])) : ListedSince listed (changes ++ [c]) n x := by
  obtain ⟨hn, hbefore, hafter⟩ := h
  refine ⟨by simp; omega, ?_, fun m hnm hm => ?_⟩
  · rwa [List.take_append_of_le_length hn.le]
  · rw [List.length_append, List.length_singleton] at hm
    rcases Nat.lt_or_ge changes.length m with hlast | hold
    · obtain rfl : m = changes.length + 1 := by omega
      rwa [List.take_of_length_le (by simp)]
    · rw [List.take_append_of_le_length hold]
      exact hafter m hnm hold

/-- What was listed already has been so since an earlier change than the last one. -/
theorem ListedSince.of_append (h : ListedSince listed (changes ++ [c]) n x)
    (hx : x ∈ listed changes) : ListedSince listed changes n x := by
  obtain ⟨hn, hbefore, hafter⟩ := h
  have hlt : n < changes.length := by
    rw [List.length_append, List.length_singleton] at hn
    refine Nat.lt_of_le_of_ne (by omega) ?_
    rintro rfl
    rw [List.take_append_of_le_length le_rfl, List.take_length] at hbefore
    exact hbefore hx
  rw [List.take_append_of_le_length hlt.le] at hbefore
  refine ⟨hlt, hbefore, fun m hnm hm => ?_⟩
  have hmem := hafter m hnm (by simp; omega)
  rwa [List.take_append_of_le_length hm] at hmem

theorem listedSince_last (hold : x ∉ listed changes) (hx : x ∈ listed (changes ++ [c])) :
    ListedSince listed (changes ++ [c]) n x ↔ n = changes.length := by
  constructor
  · rintro ⟨hn, -, hafter⟩
    rw [List.length_append, List.length_singleton] at hn
    by_contra hne
    have hmem := hafter changes.length (by omega) (by simp)
    rw [List.take_append_of_le_length le_rfl, List.take_length] at hmem
    exact hold hmem
  · rintro rfl
    refine ⟨by simp, ?_, fun m hnm hm => ?_⟩
    · rwa [List.take_append_of_le_length le_rfl, List.take_length]
    · rw [List.length_append, List.length_singleton] at hm
      rwa [List.take_of_length_le (by simp; omega)]

/-- A list that starts empty and to which each change either adds one new element at the end or
nothing is in the order of entry, whatever the changes take away. -/
theorem inOrderOfEntry (hempty : listed [] = [])
    (hstep : ∀ changes c, (listed (changes ++ [c])).Sublist (listed changes)
      ∨ ∃ x, x ∉ listed changes ∧ listed (changes ++ [c]) = listed changes ++ [x])
    (changes : List γ) : InOrderOfEntry listed changes := by
  induction changes using List.reverseRecOn with
  | nil =>
      rw [InOrderOfEntry, hempty]
      exact ⟨nofun, .nil⟩
  | append_singleton changes c ih =>
      obtain ⟨hsince, hpairwise⟩ := ih
      rcases hstep changes c with hsublist | ⟨x, hnew, hlisted⟩
      · refine ⟨fun x hx => ?_, ?_⟩
        · obtain ⟨n, hn⟩ := hsince x (hsublist.subset hx)
          exact ⟨n, hn.append hx⟩
        · refine (hpairwise.sublist hsublist).imp_of_mem fun hx hy h m n hm hn => ?_
          exact h m n (hm.of_append (hsublist.subset hx)) (hn.of_append (hsublist.subset hy))
      · have hx : x ∈ listed (changes ++ [c]) := by simp [hlisted]
        have hlast := fun n => listedSince_last (n := n) hnew hx
        refine ⟨fun y hy => ?_, ?_⟩
        · rcases List.mem_append.1 (hlisted ▸ hy) with hold | hy'
          · obtain ⟨n, hn⟩ := hsince y hold
            exact ⟨n, hn.append hy⟩
          · obtain rfl := List.mem_singleton.1 hy'
            exact ⟨_, (hlast _).2 rfl⟩
        · rw [hlisted, List.pairwise_append]
          refine ⟨?_, List.pairwise_singleton _ _, fun y hy z hz m n hm hn => ?_⟩
          · refine hpairwise.imp_of_mem fun hy hz h m n hm hn => ?_
            exact h m n (hm.of_append hy) (hn.of_append hz)
          · obtain rfl := List.mem_singleton.1 hz
            rw [(hlast n).1 hn]
            exact (hm.of_append hy).1

end Entry

/-! ## The two lists -/

/-- A graph as the list of its nodes and the list of its edges. -/
structure Listing (α : Type) where
  nodes : List α
  edges : List (α × α)

/-- What a change tells. -/
inductive GraphAnswer (α : Type) where
  | done
  | flag (b : Bool)
  | refused (e : UnknownNode α)

namespace Listing

variable {α : Type} [DecidableEq α]

omit [DecidableEq α] in
def empty : Listing α := ⟨[], []⟩

/-- Put a node at the end, and tell whether it is new. -/
def insertNode (l : Listing α) (a : α) : Bool × Listing α :=
  if a ∈ l.nodes then (false, l) else (true, { l with nodes := l.nodes ++ [a] })

/-- Put an edge at the end, if it is new. Its first end is looked for first. -/
def addEdge (l : Listing α) (a b : α) : Except (UnknownNode α) (Listing α) :=
  if a ∈ l.nodes then
    if b ∈ l.nodes then
      if (a, b) ∈ l.edges then .ok l else .ok { l with edges := l.edges ++ [(a, b)] }
    else .error ⟨b⟩
  else .error ⟨a⟩

/-- Take an edge away, and tell whether it was there. -/
def takeEdge (l : Listing α) (a b : α) : Bool × Listing α :=
  if (a, b) ∈ l.edges then (true, { l with edges := l.edges.erase (a, b) }) else (false, l)

/-- The targets of the edges from a node. -/
def dependents (l : Listing α) (a : α) : List α :=
  (l.edges.filter fun e => e.1 = a).map Prod.snd

def answer (l : Listing α) : GraphChange α → GraphAnswer α
  | .addNode a => .flag (l.insertNode a).1
  | .addEdge a b =>
      match l.addEdge a b with
      | .ok _ => .done
      | .error e => .refused e
  | .removeEdge a b => .flag (l.takeEdge a b).1
  | .clear => .done

/-- Make a change. -/
def change (l : Listing α) : GraphChange α → Listing α
  | .addNode a => (l.insertNode a).2
  | .addEdge a b =>
      match l.addEdge a b with
      | .ok l => l
      | .error _ => l
  | .removeEdge a b => (l.takeEdge a b).2
  | .clear => empty

/-- The lists after changes, one after the other, from empty ones. -/
def built (changes : List (GraphChange α)) : Listing α := changes.foldl change empty

variable {l : Listing α} {a b c : α}

theorem mem_dependents_iff (l : Listing α) (a b : α) : b ∈ l.dependents a ↔ (a, b) ∈ l.edges := by
  simp [dependents]

theorem dependents_append (l : Listing α) (a b c : α) :
    ({ l with edges := l.edges ++ [(a, b)] } : Listing α).dependents c =
      if a = c then l.dependents c ++ [b] else l.dependents c := by
  by_cases hac : a = c <;> simp [dependents, hac]

theorem dependents_erase (h : l.edges.Nodup) (a b c : α) :
    ({ l with edges := l.edges.erase (a, b) } : Listing α).dependents c =
      if a = c then (l.dependents c).filter (· ≠ b) else l.dependents c := by
  simp only [dependents, h.erase_eq_filter, List.filter_filter]
  split
  · next hac =>
      subst hac
      rw [List.filter_map, List.filter_filter]
      refine congrArg (List.map Prod.snd) (List.filter_congr fun e _ => ?_)
      obtain ⟨x, y⟩ := e
      by_cases hx : x = a <;> simp [hx, bne, beq_eq_decide]
  · next hac =>
      refine congrArg (List.map Prod.snd) (List.filter_congr fun e _ => ?_)
      obtain ⟨x, y⟩ := e
      by_cases hx : x = c
      · subst hx
        simp [Ne.symm hac]
      · simp [hx]

/-- A change of the nodes puts a new one at the end, or it takes nodes away. -/
theorem nodes_change (l : Listing α) (c : GraphChange α) :
    (l.change c).nodes.Sublist l.nodes
      ∨ ∃ x, x ∉ l.nodes ∧ (l.change c).nodes = l.nodes ++ [x] := by
  cases c with
  | addNode a =>
      rw [change, insertNode]
      split
      · exact .inl (.refl _)
      · next hnew => exact .inr ⟨a, hnew, rfl⟩
  | addEdge a b =>
      rw [change, addEdge]
      split_ifs <;> exact .inl (.refl _)
  | removeEdge a b =>
      rw [change, takeEdge]
      split <;> exact .inl (.refl _)
  | clear => exact .inl (List.nil_sublist _)

theorem change_addEdge (l : Listing α) (a b : α) :
    l.change (.addEdge a b) = l
      ∨ (a, b) ∉ l.edges ∧ l.change (.addEdge a b) = { l with edges := l.edges ++ [(a, b)] } := by
  rw [change, addEdge]
  split_ifs with ha hb hold
  · exact .inl rfl
  · exact .inr ⟨hold, rfl⟩
  · exact .inl rfl
  · exact .inl rfl

/-- A change of a node's dependents puts a new one at the end, or it takes dependents away. -/
theorem dependents_change (l : Listing α) (c : GraphChange α) (a : α) :
    ((l.change c).dependents a).Sublist (l.dependents a)
      ∨ ∃ x, x ∉ l.dependents a ∧ (l.change c).dependents a = l.dependents a ++ [x] := by
  cases c with
  | addNode b =>
      rw [change, insertNode]
      split <;> exact .inl (.refl _)
  | addEdge b x =>
      rcases l.change_addEdge b x with hsame | ⟨hnew, hadded⟩
      · rw [hsame]
        exact .inl (.refl _)
      · rw [hadded, dependents_append]
        split
        · next hba => exact .inr ⟨x, fun hx => hnew (hba ▸ (l.mem_dependents_iff a x).1 hx), rfl⟩
        · exact .inl (.refl _)
  | removeEdge b x =>
      rw [change, takeEdge]
      split
      · exact .inl ((List.erase_sublist.filter _).map _)
      · exact .inl (.refl _)
  | clear => exact .inl (List.nil_sublist _)

theorem built_append (changes : List (GraphChange α)) (c : GraphChange α) :
    built (changes ++ [c]) = (built changes).change c := List.foldl_concat ..

theorem inOrderOfEntry_nodes (changes : List (GraphChange α)) :
    InOrderOfEntry (fun changes => (built changes).nodes) changes :=
  inOrderOfEntry rfl (fun changes c => by
    simp only [built_append]
    exact (built changes).nodes_change c) changes

theorem inOrderOfEntry_dependents (a : α) (changes : List (GraphChange α)) :
    InOrderOfEntry (fun changes => (built changes).dependents a) changes :=
  inOrderOfEntry rfl (fun changes c => by
    simp only [built_append]
    exact (built changes).dependents_change c a) changes

theorem nodup_dependents (h : l.edges.Nodup) (a : α) : (l.dependents a).Nodup := by
  refine (h.filter _).map_on fun e he e' he' heq => Prod.ext ?_ heq
  exact (of_decide_eq_true (List.mem_filter.1 he).2).trans
    (of_decide_eq_true (List.mem_filter.1 he').2).symm

end Listing

/-! ## What a graph tells -/

namespace Graph

variable {α : Type} [Ord α] {g : Graph α} {a b c : α} {i j : Nat}

/-- What a change tells. -/
def answer (g : Graph α) : GraphChange α → GraphAnswer α
  | .addNode a => .flag (g.insertNode a).1
  | .addEdge a b =>
      match g.addEdge a b with
      | .ok _ => .done
      | .error e => .refused e
  | .removeEdge a b => .flag (g.takeEdge a b).1
  | .clear => .done

section Dependents

theorem WellFormed.named_filter (h : g.WellFormed) (hj : g.nodes[j]? = some b) [DecidableEq α]
    (is : List Nat) : g.named (is.filter (· != j)) = (g.named is).filter (· ≠ b) := by
  rw [named, named, List.filterMap_filter, List.filter_filterMap]
  refine List.filterMap_congr fun i _ => ?_
  cases hi : g.nodes[i]? with
  | none => simp
  | some a =>
      by_cases hij : i = j
      · obtain rfl : a = b := Option.some.inj (hi.symm.trans (hij ▸ hj))
        simp [hij, Option.filter_some]
      · have hab : a ≠ b := fun hab => hij (h.index_unique hi (hab ▸ hj))
        simp [hij, hab, Option.filter_some]

theorem WellFormed.number?_eq_iff (h : g.WellFormed) (hi : g.number? a = some i)
    (hj : g.number? c = some j) : i = j ↔ a = c := by
  constructor
  · rintro rfl
    exact Option.some.inj (((h.number?_iff a i).1 hi).symm.trans ((h.number?_iff c i).1 hj))
  · rintro rfl
    exact Option.some.inj (hi.symm.trans hj)

theorem WellFormed.dependents_addArrow (h : g.WellFormed) [DecidableEq α]
    (hi : g.number? a = some i) (hj : g.number? b = some j) (hnew : g.hasArrow i j = false)
    (c : α) :
    (g.addArrow i j).dependents c =
      if a = c then g.dependents c ++ [b] else g.dependents c := by
  have hgraph : g.addArrow i j =
      { g with arrows := g.arrows.modify i (·.push j), edges := g.edges.insert ⟨i, j⟩ } := by
    rw [Graph.addArrow, hnew]
    rfl
  cases hk : g.number? c with
  | none =>
      have hac : a ≠ c := fun hac => by simp [← hac, hi] at hk
      simp only [hgraph, dependents, number?] at hk ⊢
      simp [hk, hac]
  | some k =>
      have hb := (h.number?_iff b j).1 hj
      have hlt : k < g.arrows.size := h.lt_size ((h.number?_iff c k).1 hk)
      have hk' : (g.addArrow i j).number? c = some k := by rwa [hgraph]
      rw [dependents_eq hk', dependents_eq hk, hgraph, Arrows.next_modify_push]
      simp only [h.number?_eq_iff hi hk, hlt, and_true]
      split
      · simp [named, hb]
      · rfl

theorem WellFormed.dependents_takeArrow (h : g.WellFormed) [DecidableEq α]
    (hi : g.number? a = some i) (hj : g.number? b = some j) (hold : g.hasArrow i j = true) (c : α) :
    (g.takeArrow i j).2.dependents c =
      if a = c then (g.dependents c).filter (· ≠ b) else g.dependents c := by
  have hgraph : (g.takeArrow i j).2 =
      { g with
        arrows := g.arrows.modify i (·.filter (· != j))
        edges := g.edges.erase ⟨i, j⟩ } := by
    rw [Graph.takeArrow, hold]
    rfl
  cases hk : g.number? c with
  | none =>
      have hac : a ≠ c := fun hac => by simp [← hac, hi] at hk
      simp only [hgraph, dependents, number?] at hk ⊢
      simp [hk, hac]
  | some k =>
      have hlt : k < g.arrows.size := h.lt_size ((h.number?_iff c k).1 hk)
      have hk' : (g.takeArrow i j).2.number? c = some k := by rwa [hgraph]
      rw [dependents_eq hk', dependents_eq hk, hgraph, Arrows.next_modify_filter]
      simp only [h.number?_eq_iff hi hk, hlt, and_true]
      split
      · exact h.named_filter ((h.number?_iff b j).1 hj) _
      · rfl

end Dependents

variable [DecidableEq α]

/-- A graph keeps step with two lists. -/
structure InStepWith (g : Graph α) (l : Listing α) : Prop where
  wellFormed : g.WellFormed
  toList : g.toList = l.nodes
  dependents : ∀ a, g.dependents a = l.dependents a
  nodup : l.edges.Nodup

/-- All that a graph can be asked is answered as from two lists. -/
structure Shows (g : Graph α) (l : Listing α) : Prop where
  toList : g.toList = l.nodes
  contains : ∀ a, g.contains a = decide (a ∈ l.nodes)
  hasEdge : ∀ a b, g.hasEdge a b = decide ((a, b) ∈ l.edges)
  dependents : ∀ a, g.dependents a = l.dependents a
  nodeCount : g.nodeCount = l.nodes.length
  edgeCount : g.edgeCount = l.edges.length

theorem inStepWith_empty [Std.TransOrd α] : (empty : Graph α).InStepWith Listing.empty where
  wellFormed := wellFormed_empty
  toList := rfl
  dependents a := by
    rw [dependents_of_not_contains (by simp [contains, number?, empty])]
    rfl
  nodup := List.nodup_nil

namespace InStepWith

variable {l : Listing α} (h : g.InStepWith l)
include h

theorem contains_iff (a : α) : g.contains a = true ↔ a ∈ l.nodes := by
  rw [← h.wellFormed.mem_toList_iff, h.toList]

theorem hasEdge_iff (a b : α) : g.hasEdge a b = true ↔ (a, b) ∈ l.edges := by
  rw [← l.mem_dependents_iff, ← h.dependents, h.wellFormed.mem_dependents_iff, Edge]

theorem edgeCount_eq : g.edgeCount = l.edges.length := by
  rw [h.wellFormed.edgeCount_eq, ← ncard_eq_length h.nodup]
  refine congrArg Set.ncard (Set.ext fun p => ?_)
  exact h.hasEdge_iff p.1 p.2

theorem shows : g.Shows l where
  toList := h.toList
  contains a := Bool.eq_iff_iff.2 ((h.contains_iff a).trans decide_eq_true_iff.symm)
  hasEdge a b := Bool.eq_iff_iff.2 ((h.hasEdge_iff a b).trans decide_eq_true_iff.symm)
  dependents := h.dependents
  nodeCount := by rw [nodeCount, ← Array.length_toList, ← Graph.toList, h.toList]
  edgeCount := h.edgeCount_eq

end InStepWith

/-! ## Every change -/

section Changes

variable {l : Listing α} (h : g.InStepWith l)
include h

omit [DecidableEq α] h in
theorem takeEdge_of_not_hasEdge (hedge : ¬g.hasEdge a b = true) : g.takeEdge a b = (false, g) := by
  rw [hasEdge] at hedge
  rw [Graph.takeEdge]
  split
  · next i j hi hj =>
      simp only [hi, hj] at hedge
      rw [takeArrow, if_neg hedge]
  · rfl

omit [DecidableEq α] h in
theorem dependents_addNode [Std.TransOrd α] [Std.LawfulEqOrd α] (h : g.WellFormed) (a b : α) :
    (g.addNode a).dependents b = g.dependents b := by
  cases ha : g.contains a with
  | true => rw [addNode_of_contains ha]
  | false =>
      have hbound : ∀ i, ∀ j ∈ g.arrows.next i, j < g.nodes.size :=
        fun i j hj => h.size ▸ h.arrows.bounded hj
      by_cases hab : a = b
      · subst hab
        have hnone : g.arrows.next g.nodes.size = [] :=
          List.eq_nil_iff_forall_not_mem.2 fun j hj =>
            absurd (Arrows.lt_size_of_mem_next hj) h.size.not_gt
        rw [dependents_eq (number?_addNode_self ha), next_addNode, hnone,
          dependents_of_not_contains (Bool.eq_false_iff.1 ha)]
        rfl
      · rw [dependents, dependents, number?_addNode_of_ne hab]
        cases g.number? b with
        | none => rfl
        | some i => simp only [next_addNode, named_addNode g a (hbound i)]

theorem InStepWith.insertNode [Std.TransOrd α] [Std.LawfulEqOrd α] (a : α) :
    (g.insertNode a).1 = (l.insertNode a).1 ∧ (g.addNode a).InStepWith (l.insertNode a).2 := by
  by_cases ha : g.contains a = true
  · have hmem := (h.contains_iff a).1 ha
    rw [addNode_of_contains ha, Graph.insertNode, if_pos ha, Listing.insertNode, if_pos hmem]
    exact ⟨rfl, h⟩
  · have hmem := fun hmem => ha ((h.contains_iff a).2 hmem)
    rw [Graph.insertNode, if_neg ha, Listing.insertNode, if_neg hmem]
    refine ⟨rfl, h.wellFormed.addNode a, ?_, fun b => ?_, h.nodup⟩
    · rw [toList_addNode (Bool.eq_false_iff.2 ha), h.toList]
    · rw [dependents_addNode h.wellFormed, h.dependents]
      rfl

theorem InStepWith.addEdge (a b : α) :
    (∃ e, g.addEdge a b = .error e ∧ l.addEdge a b = .error e)
      ∨ ∃ g' l', g.addEdge a b = .ok g' ∧ l.addEdge a b = .ok l' ∧ g'.InStepWith l' := by
  by_cases ha : g.contains a = true
  case neg =>
    have hmem := fun hmem => ha ((h.contains_iff a).2 hmem)
    exact .inl ⟨_, addEdge_of_unknown_source ha b, if_neg hmem⟩
  by_cases hb : g.contains b = true
  case neg =>
    have hmem := fun hmem => hb ((h.contains_iff b).2 hmem)
    refine .inl ⟨_, addEdge_of_unknown_target ha hb, ?_⟩
    rw [Listing.addEdge, if_pos ((h.contains_iff a).1 ha), if_neg hmem]
  have hlisted : l.addEdge a b = if (a, b) ∈ l.edges then .ok l
      else .ok { l with edges := l.edges ++ [(a, b)] } := by
    rw [Listing.addEdge, if_pos ((h.contains_iff a).1 ha), if_pos ((h.contains_iff b).1 hb)]
  obtain ⟨i, hi⟩ := (Graph.contains_iff g a).1 ha
  obtain ⟨j, hj⟩ := (Graph.contains_iff g b).1 hb
  have hmem := h.hasEdge_iff a b
  rw [hasEdge_eq hi hj] at hmem
  refine .inr ⟨_, _, addEdge_eq_ok hi hj, hlisted.trans (apply_ite Except.ok _ _ _).symm, ?_⟩
  by_cases hold : g.hasArrow i j = true
  · rwa [if_pos (hmem.1 hold), Graph.addArrow, if_pos hold]
  · have hnew := fun hedge => hold (hmem.2 hedge)
    have hlt := fun {c : α} {k} (hk : g.number? c = some k) =>
      h.wellFormed.lt_size ((h.wellFormed.number?_iff c k).1 hk)
    rw [if_neg hnew]
    refine ⟨h.wellFormed.addArrow (hlt hi) (hlt hj), ?_, fun c => ?_, ?_⟩
    · rw [Graph.toList, nodes_addArrow, ← Graph.toList, h.toList]
    · rw [h.wellFormed.dependents_addArrow hi hj (Bool.eq_false_iff.2 hold), h.dependents,
        Listing.dependents_append]
    · exact List.nodup_append.2 ⟨h.nodup, List.nodup_singleton _, fun e he e' he' heq =>
        hnew (List.mem_singleton.1 he' ▸ heq ▸ he)⟩

theorem InStepWith.takeEdge (a b : α) :
    (g.takeEdge a b).1 = (l.takeEdge a b).1 ∧ (g.removeEdge a b).InStepWith (l.takeEdge a b).2 := by
  have hmem := h.hasEdge_iff a b
  rw [removeEdge]
  by_cases hedge : g.hasEdge a b = true
  · obtain ⟨i, j, hai, hbj, -⟩ := (h.wellFormed.edge_iff a b).1 hedge
    have hi := (h.wellFormed.number?_iff a i).2 hai
    have hj := (h.wellFormed.number?_iff b j).2 hbj
    have hold : g.hasArrow i j = true := by rwa [← hasEdge_eq hi hj]
    rw [takeEdge_eq hi hj, Listing.takeEdge, if_pos (hmem.1 hedge)]
    refine ⟨by rw [takeArrow, if_pos hold], h.wellFormed.takeArrow i j, ?_, fun c => ?_,
      h.nodup.erase _⟩
    · rw [Graph.toList, nodes_takeArrow, ← Graph.toList, h.toList]
    · rw [h.wellFormed.dependents_takeArrow hi hj hold, h.dependents,
        Listing.dependents_erase h.nodup]
  · rw [takeEdge_of_not_hasEdge hedge, Listing.takeEdge, if_neg fun hl => hedge (hmem.2 hl)]
    exact ⟨rfl, h⟩

variable [Std.TransOrd α] [Std.LawfulEqOrd α]

/-- A change tells the same of a graph and of the lists that it keeps step with, and it keeps the
two in step. -/
theorem InStepWith.change (c : GraphChange α) :
    g.answer c = l.answer c ∧ (g.change c).InStepWith (l.change c) := by
  cases c with
  | addNode a =>
      obtain ⟨hflag, h'⟩ := h.insertNode a
      exact ⟨congrArg _ hflag, h'⟩
  | addEdge a b =>
      rcases h.addEdge a b with ⟨e, hg, hl⟩ | ⟨g', l', hg, hl, h'⟩
      · simp only [Graph.answer, Graph.change, Listing.answer, Listing.change, hg, hl]
        exact ⟨trivial, h⟩
      · simp only [Graph.answer, Graph.change, Listing.answer, Listing.change, hg, hl]
        exact ⟨trivial, h'⟩
  | removeEdge a b =>
      obtain ⟨hflag, h'⟩ := h.takeEdge a b
      exact ⟨congrArg _ hflag, h'⟩
  | clear => exact ⟨rfl, inStepWith_empty⟩

end Changes

omit [DecidableEq α] in
theorem built_append (changes : List (GraphChange α)) (c : GraphChange α) :
    built (changes ++ [c]) = (built changes).change c := List.foldl_concat ..

variable [Std.TransOrd α] [Std.LawfulEqOrd α]

theorem inStepWith_built (changes : List (GraphChange α)) :
    (built changes).InStepWith (Listing.built changes) := by
  induction changes using List.reverseRecOn with
  | nil => exact inStepWith_empty
  | append_singleton changes c ih =>
      rw [built_append, Listing.built_append]
      exact (ih.change c).2

/-- However a graph is built, it tells the same as two lists to which nodes and edges are added at
the end, and so does every further change. Nodes and dependents are listed once and in the order in
which they came, an edge is there if and only if its end is listed, and as many edges are counted as
are listed. An edge with an unknown end and the removal of an edge that is not there change
nothing. -/
theorem built_listing (changes : List (GraphChange α)) :
    let g := built changes
    let l := Listing.built changes
    g.Shows l ∧ l.nodes.Nodup ∧ l.edges.Nodup ∧ (∀ c, g.answer c = l.answer c)
      ∧ g.toList.Nodup ∧ InOrderOfEntry (fun changes => (built changes).toList) changes
      ∧ (∀ a, (g.dependents a).Nodup
          ∧ InOrderOfEntry (fun changes => (built changes).dependents a) changes)
      ∧ (∀ a b, g.hasEdge a b = true ↔ b ∈ g.dependents a)
      ∧ g.edgeCount = (g.toList.map fun a => (g.dependents a).length).sum
      ∧ (∀ a b, ¬(g.contains a = true ∧ g.contains b = true) →
          (∃ e, g.addEdge a b = .error e) ∧ g.change (.addEdge a b) = g)
      ∧ ∀ a b, g.hasEdge a b = false → g.change (.removeEdge a b) = g := by
  intro g l
  have h : g.InStepWith l := inStepWith_built changes
  have hnodes : (fun changes => (built changes).toList)
      = fun changes : List (GraphChange α) => (Listing.built changes).nodes :=
    funext fun changes => (inStepWith_built changes).toList
  have hdependents : ∀ a, (fun changes => (built changes).dependents a)
      = fun changes : List (GraphChange α) => (Listing.built changes).dependents a :=
    fun a => funext fun changes => (inStepWith_built changes).dependents a
  refine ⟨h.shows, h.toList ▸ h.wellFormed.nodup_toList, h.nodup, fun c => (h.change c).1,
    h.wellFormed.nodup_toList, ?_, fun a => ⟨?_, ?_⟩, fun a b => ?_,
    h.wellFormed.edgeCount_eq_lengths, fun a b hab => ?_, fun a b hedge => ?_⟩
  · rw [hnodes]
    exact Listing.inOrderOfEntry_nodes changes
  · rw [h.dependents]
    exact Listing.nodup_dependents h.nodup a
  · rw [hdependents]
    exact Listing.inOrderOfEntry_dependents a changes
  · exact (h.wellFormed.mem_dependents_iff a b).symm
  · obtain ⟨e, he⟩ := addEdge_eq_error hab
    exact ⟨⟨e, he⟩, by rw [change, he]⟩
  · rw [change, removeEdge, takeEdge_of_not_hasEdge (Bool.eq_false_iff.1 hedge)]

/-- Two dependents of one node, the first of which is taken away and put back twice. -/
def putBack : List (GraphChange Nat) :=
  [.addNode 2, .addNode 0, .addNode 1, .addNode 0, .addEdge 2 0, .addEdge 2 1, .removeEdge 2 0,
    .addEdge 2 0, .addEdge 2 0]

theorem built_listing_putBack :
    let g := built putBack
    g.toList = [2, 0, 1] ∧ g.dependents 2 = [1, 0] ∧ g.edgeCount = 2 ∧ g.hasEdge 2 0 = true
      ∧ g.Shows (Listing.built putBack)
      ∧ InOrderOfEntry (fun changes => (built changes).dependents 2) putBack
      ∧ g.change (.addEdge 0 5) = g ∧ g.change (.removeEdge 0 2) = g := by
  intro g
  obtain ⟨shows, -, -, -, -, -, dependents, hasEdge, -, unknown, absent⟩ := built_listing putBack
  have hdependents : g.dependents 2 = [1, 0] := by decide +kernel
  have hcount : g.edgeCount = 2 := by decide +kernel
  refine ⟨shows.toList.trans (by decide), hdependents, hcount, (hasEdge 2 0).2 ?_, shows,
    (dependents 2).2, (unknown 0 5 ?_).2, absent 0 2 ?_⟩
  · rw [hdependents]
    decide
  · rw [shows.contains, shows.contains]
    decide
  · rw [shows.hasEdge]
    decide

end Graph

end Recalc
