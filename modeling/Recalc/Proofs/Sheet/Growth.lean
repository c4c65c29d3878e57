import Recalc.Proofs.Sheet.Contents

/-!
# What building adds

Vertices are numbered in the order in which they are added, in the store and in the graph alike. No
step of building adds a vertex for anything but the cells and ranges that it has been asked for.
-/

namespace Recalc

namespace Graph

variable {α : Type} [Ord α] {g g' : Graph α} {a b : α}

theorem WellFormed.of_addEdge (h : g.WellFormed) (hg : g.addEdge a b = .ok g') :
    g'.WellFormed ∧ g'.toList = g.toList := by
  by_cases hab : g.contains a = true ∧ g.contains b = true
  · obtain ⟨g₁, hg₁, wf, hnodes, -⟩ := h.addEdge hab.1 hab.2
    obtain rfl := Except.ok.inj (hg₁.symm.trans hg)
    exact ⟨wf, congrArg Array.toList hnodes⟩
  · obtain ⟨e, he⟩ := addEdge_eq_error hab
    cases he.symm.trans hg

end Graph

theorem Store.map_fst_toList (s : Store) :
    s.toList.map Prod.fst = (List.range s.size).map VertexId.mk := by
  rw [toList, List.map_map, size, ← Array.length_toList, List.range_eq_range',
    ← List.zipIdx_map_snd 0 s.vertices.toList, List.map_map]
  rfl

namespace Sheet

variable {s t u : Sheet} {more most : Dependency → Prop} {d : Dependency} {a : Address}
  {r : Range} {id source target : VertexId} {v : Vertex}

/-- The nodes of the graph are the vertices, in the order of their numbers. -/
structure Numbered (s : Sheet) : Prop where
  graph : s.graph.WellFormed
  toList : s.graph.toList = s.store.toList.map Prod.fst

theorem numbered_blank (sheet width height : Nat) : (blank sheet width height).Numbered :=
  ⟨Graph.wellFormed_empty, rfl⟩

/-- What a step of building leaves as it is, and which vertices it may add. -/
structure Grows (s t : Sheet) (more : Dependency → Prop) : Prop where
  numbered : s.Numbered → t.Numbered
  covers_iff : ∀ d, t.Covers d ↔ s.Covers d
  found : ∀ d id, t.find? d = some id → s.find? d = some id ∨ more d
  vertex : ∀ id v, t.store.get? id = some v →
    s.store.get? id = some v ∨ v.kind = .blank ∨ v.kind = .range
  caches : t.store.caches = s.store.caches

namespace Grows

theorem refl (s : Sheet) (more : Dependency → Prop) : s.Grows s more :=
  ⟨fun h => h, fun _ => Iff.rfl, fun _ _ h => Or.inl h, fun _ _ h => Or.inl h, rfl⟩

theorem trans (h : s.Grows t more) (h' : t.Grows u more) : s.Grows u more where
  numbered hs := h'.numbered (h.numbered hs)
  covers_iff d := (h'.covers_iff d).trans (h.covers_iff d)
  found d id hid := (h'.found d id hid).elim (h.found d id) Or.inr
  vertex id v hv := (h'.vertex id v hv).elim (h.vertex id v) Or.inr
  caches := h'.caches.trans h.caches

theorem mono (h : s.Grows t more) (hmore : ∀ d, more d → most d) : s.Grows t most where
  numbered := h.numbered
  covers_iff := h.covers_iff
  found d id hid := (h.found d id hid).imp_right (hmore d)
  vertex := h.vertex
  caches := h.caches

end Grows

/-! ## One vertex and one arrow -/

theorem Numbered.grow (h : s.Numbered) (d : Dependency) (v : Vertex) : (s.grow d v).Numbered := by
  have hnew : s.graph.contains s.store.nextId = false := by
    rw [Bool.eq_false_iff, ne_eq, ← h.graph.mem_toList_iff, h.toList, Store.map_fst_toList]
    intro hmem
    obtain ⟨i, hi, heq⟩ := List.mem_map.mp hmem
    exact Nat.ne_of_lt (List.mem_range.mp hi) (congrArg VertexId.index heq)
  refine ⟨?_, ?_⟩
  · rw [graph_grow]
    exact h.graph.addNode _
  · rw [graph_grow, Graph.toList_addNode hnew, h.toList, store_grow, Store.map_fst_toList,
      Store.map_fst_toList, Store.size_insert, List.range_succ, List.map_append]
    rfl

theorem grows_grow (s : Sheet) (d : Dependency) (hv : v.kind = .blank ∨ v.kind = .range) :
    s.Grows (s.grow d v) (· = d) where
  numbered h := h.grow d v
  covers_iff e := s.covers_grow d e v
  found e id he := by
    rw [find?_grow] at he
    split at he
    · next heq => exact Or.inr heq
    · exact Or.inl he
  vertex id w hw := by
    rw [store_grow, Store.get?_insert] at hw
    split at hw
    · exact Or.inr (Option.some.inj hw ▸ hv)
    · exact Or.inl hw
  caches := by
    rw [store_grow]
    rfl

theorem eq_grow_of_addCell (h : s.addCell a v = .ok t) : t = s.grow (.cell a) v := by
  by_cases ha : s.cells.inBounds a = true
  · exact (Except.ok.inj ((addCell_eq_grow ha v).symm.trans h)).symm
  · simp only [addCell, CellMap.set, if_neg ha] at h
    cases h

theorem grows_connect (h : s.connect source target = .ok t) (more : Dependency → Prop) :
    s.Grows t more := by
  rw [connect] at h
  split at h
  · next graph hgraph =>
      obtain rfl := Except.ok.inj h
      refine ⟨fun hs => ?_, fun d => ?_, fun d id hid => ?_, fun _ _ => Or.inl, rfl⟩
      · obtain ⟨wf, htoList⟩ := hs.graph.of_addEdge hgraph
        exact ⟨wf, htoList.trans hs.toList⟩
      · cases d <;> exact Iff.rfl
      · cases d <;> exact Or.inl hid
  · cases h

theorem grows_cellVertex (h : s.cellVertex a = .ok (id, t)) : s.Grows t (· = .cell a) := by
  rw [cellVertex] at h
  obtain ⟨found, -, h⟩ := exists_of_bind_eq_ok h
  cases found with
  | some old =>
      obtain ⟨-, rfl⟩ := Prod.mk.inj (Except.ok.inj h)
      exact Grows.refl s _
  | none =>
      obtain ⟨u, hu, h⟩ := exists_of_bind_eq_ok h
      obtain ⟨-, rfl⟩ := Prod.mk.inj (Except.ok.inj h)
      exact eq_grow_of_addCell hu ▸ s.grows_grow (.cell a) (Or.inl rfl)

/-! ## Ranges -/

theorem grows_feed (h : feed target s a = .ok t) : s.Grows t (· = .cell a) := by
  rw [feed] at h
  obtain ⟨⟨cell, u⟩, hu, h⟩ := exists_of_bind_eq_ok h
  exact (grows_cellVertex hu).trans (grows_connect h _)

theorem grows_rangeVertex (h : s.rangeVertex r = .ok (id, t)) :
    s.Grows t fun d => d = .range r ∨ ∃ b ∈ r.addresses, d = .cell b := by
  rw [rangeVertex] at h
  cases hfind : s.ranges.get? r with
  | some old =>
      rw [hfind] at h
      obtain ⟨-, rfl⟩ := Prod.mk.inj (Except.ok.inj h)
      exact Grows.refl s _
  | none =>
      rw [hfind] at h
      obtain ⟨u, hu, h⟩ := exists_of_bind_eq_ok h
      obtain ⟨-, rfl⟩ := Prod.mk.inj (Except.ok.inj h)
      refine ((s.grows_grow (.range r) (v := .range r) (Or.inr rfl)).mono fun _ => Or.inl).trans ?_
      refine of_foldlM (Grows _ · _) (fun b hb s₁ s₂ h₁ h₂ => ?_) (Grows.refl _ _) hu
      exact h₁.trans ((grows_feed h₂).mono fun _ heq => Or.inr ⟨b, hb, heq⟩)

/-! ## Formulas -/

theorem grows_precedent? {found : Option VertexId} (h : s.precedent? d = .ok (found, t)) :
    s.Grows t fun e =>
      s.Covers d ∧ (e = d ∨ ∃ r, d = .range r ∧ ∃ b ∈ r.addresses, e = .cell b) := by
  cases d with
  | cell a =>
      rw [precedent?] at h
      split at h
      · next ha =>
          obtain ⟨⟨id, u⟩, hu, h⟩ := exists_of_bind_eq_ok h
          obtain ⟨-, rfl⟩ := Prod.mk.inj (Except.ok.inj h)
          exact (grows_cellVertex hu).mono fun _ heq => ⟨ha, Or.inl heq⟩
      · obtain ⟨-, rfl⟩ := Prod.mk.inj (Except.ok.inj h)
        exact Grows.refl s _
  | range r =>
      rw [precedent?] at h
      split at h
      · next hr =>
          obtain ⟨⟨id, u⟩, hu, h⟩ := exists_of_bind_eq_ok h
          obtain ⟨-, rfl⟩ := Prod.mk.inj (Except.ok.inj h)
          refine (grows_rangeVertex hu).mono fun _ hmore => ⟨hr, hmore.imp_right fun hb => ?_⟩
          exact ⟨r, rfl, hb⟩
      · obtain ⟨-, rfl⟩ := Prod.mk.inj (Except.ok.inj h)
        exact Grows.refl s _

/-- A dependency of a formula brings vertices for what is then read. -/
theorem grows_wire (h : s.wire target d = .ok t) (a : Address) :
    s.Grows t fun f => s.Covers d ∧ ∃ e, Dependency.Brings a d e f := by
  rw [wire] at h
  obtain ⟨⟨found, u⟩, hu, h⟩ := exists_of_bind_eq_ok h
  have hgrows : s.Grows u fun f => s.Covers d ∧ ∃ e, Dependency.Brings a d e f := by
    refine (grows_precedent? hu).mono fun f hmore => ⟨hmore.1, ?_⟩
    rcases hmore.2 with rfl | ⟨r, rfl, b, hb, rfl⟩
    · exact ⟨_, .formula⟩
    · exact ⟨_, .cells rfl hb⟩
  cases found with
  | some id => exact hgrows.trans (grows_connect h _)
  | none => exact Except.ok.inj h ▸ hgrows

theorem grows_wireFormula {functions : Registry} {entry : VertexId × Vertex}
    (h : s.wireFormula functions entry = .ok t) :
    s.Grows t fun f => ∃ e, s.Brings functions entry.2 e f := by
  obtain ⟨id, v⟩ := entry
  cases v with
  | formula x home shown =>
      refine of_foldlM (s.Grows · _) (fun d hd s₁ s₂ h₁ h₂ => h₁.trans ?_) (Grows.refl s _) h
      refine (grows_wire h₂ home).mono fun f hmore => ?_
      obtain ⟨hcovers, e, hbrings⟩ := hmore
      exact ⟨e, d, hd, (h₁.covers_iff d).mp hcovers, hbrings⟩
  | _ => exact Except.ok.inj h ▸ Grows.refl s _

theorem Grows.brings_iff (h : s.Grows t more) (functions : Registry) (v : Vertex)
    (e f : Dependency) : t.Brings functions v e f ↔ s.Brings functions v e f := by
  cases v with
  | formula x home _ => simp only [Brings, h.covers_iff]
  | _ => exact Iff.rfl

/-- Wiring adds vertices for what some formula reads, and for nothing else. -/
theorem grows_wireAll {functions : Registry}
    (h : s.store.toList.foldlM (wireFormula functions) s = .ok t) :
    s.Grows t fun f => ∃ e, ∃ entry ∈ s.store.toList, s.Brings functions entry.2 e f := by
  refine of_foldlM (s.Grows · _) (fun entry hentry s₁ s₂ h₁ h₂ => h₁.trans ?_) (Grows.refl s _) h
  refine (grows_wireFormula h₂).mono fun f hmore => ?_
  obtain ⟨e, hbrings⟩ := hmore
  exact ⟨e, entry, hentry, (h₁.brings_iff functions _ e f).mp hbrings⟩

/-! ## Typed contents -/

theorem numbered_ofContents {sheet : Nat} {rows : List (List String)}
    (h : ofContents sheet rows = .ok s) : s.Numbered := by
  refine of_foldlM Numbered (fun entry _ s₁ s₂ h₁ h₂ => ?_) (numbered_blank ..) h
  change s₁.enter entry.1 entry.2 = .ok s₂ at h₂
  rw [enter] at h₂
  split at h₂
  · exact eq_grow_of_addCell h₂ ▸ h₁.grow _ _
  · exact Except.ok.inj h₂ ▸ h₁

theorem numbered_ofRows {functions : Registry} {sheet : Nat} {rows : List (List String)}
    (h : ofRows functions sheet rows = .ok s) : s.Numbered := by
  rw [ofRows] at h
  obtain ⟨u, hu, h⟩ := exists_of_bind_eq_ok h
  exact (grows_wireAll h).numbered (numbered_ofContents hu)

end Sheet

end Recalc
