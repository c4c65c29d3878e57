import Recalc.Proofs.Engine.Solution

/-!
# The parts of a loaded sheet

The store, the graph, the two maps and the order of a loaded sheet are kept in step by every load,
edit and pass, whatever functions there are and also where a request is refused.
-/

namespace Recalc

namespace Sheet

variable {s t : Sheet}

theorem SameOutline.numbered (h : s.SameOutline t) (hs : s.Numbered) : t.Numbered where
  graph := h.graph ▸ hs.graph
  toList := by
    have hlt : ∀ id : VertexId, id.index < t.store.size ↔ id.index < s.store.size :=
      fun _ => h.size
    have hsize : t.store.size = s.store.size := by
      have : t.store.size < t.store.size ↔ t.store.size < s.store.size := hlt ⟨_⟩
      have : s.store.size < t.store.size ↔ s.store.size < s.store.size := hlt ⟨_⟩
      omega
    rw [h.graph, hs.toList, Store.map_fst_toList, Store.map_fst_toList, hsize]

theorem Numbered.replace (h : s.Numbered) (id : VertexId) (v : Vertex) :
    ({ s with store := s.store.replace id v } : Sheet).Numbered where
  graph := h.graph
  toList := by
    rw [h.toList, Store.map_fst_toList, Store.map_fst_toList, Store.size_replace]

end Sheet

namespace LoadedSheet

/-- The parts of a sheet belong together. -/
structure InStep (functions : Registry) (l : LoadedSheet) : Prop where
  /-- The nodes are the numbers of the store in the order in which they were given. -/
  nodes : l.sheet.graph.toList = l.sheet.store.toList.map Prod.fst
  cells_injective : ∀ (a b : Address) (id : VertexId), l.sheet.cells.vertices[a]? = some id →
    l.sheet.cells.vertices[b]? = some id → a = b
  cells_inBounds : ∀ (a : Address) (id : VertexId), l.sheet.cells.vertices[a]? = some id →
    l.sheet.cells.inBounds a = true
  cells_kind : ∀ (a : Address) (id : VertexId), l.sheet.cells.vertices[a]? = some id →
    ∃ v, l.sheet.store.get? id = some v
      ∧ (v.kind = .value ∨ v.kind = .formula ∨ v.kind = .blank)
  home : ∀ id x a shown, l.sheet.store.get? id = some (.formula x a shown) →
    l.sheet.cells.vertices[a]? = some id
  ranges : ∀ r id, l.sheet.ranges.get? r = some id →
    l.sheet.store.get? id = some (.range r) ∧ l.sheet.cells.rangeInBounds r = true
  /-- Cells without a formula read nothing. -/
  constants : ∀ id v, l.sheet.store.get? id = some v → v.kind = .value ∨ v.kind = .blank →
    ∀ u, l.sheet.graph.hasEdge u id = false
  /-- What a formula names on the sheet has a vertex, which leads to the formula. -/
  names : ∀ id x a shown, l.sheet.store.get? id = some (.formula x a shown) →
    ∀ d ∈ x.dependencies functions.shapeOnly a, l.sheet.Covers d →
      ∃ u, l.sheet.find? d = some u ∧ l.sheet.graph.hasEdge u id = true
  /-- The cells of a range lead to its vertex. -/
  fed : ∀ r id, l.sheet.ranges.get? r = some id → ∀ a ∈ r.addresses,
    ∃ u : VertexId, l.sheet.cells.vertices[a]? = some u ∧ l.sheet.graph.hasEdge u id = true
  order : l.order = l.sheet.graph.sort
  cycled : ∀ id ∈ l.order.cycled, ∃ v, l.sheet.store.get? id = some v ∧ v.kind = .formula

variable {functions : Registry} {l m : LoadedSheet} {a : Address} {v : Value}

theorem Ready.inStep (h : l.Ready functions) (hnumbered : l.sheet.Numbered) :
    l.InStep functions := by
  have hwired := h.passable.wired
  have hlabelled := hwired.labelled
  constructor
  case nodes => exact hnumbered.toList
  case cells_injective =>
    intro a b id ha hb
    exact Dependency.cell.inj (hlabelled.inj (.cell a) (.cell b) id ha hb)
  case cells_inBounds => exact fun a id hid => hlabelled.covers (.cell a) id hid
  case cells_kind =>
    intro a id hid
    obtain ⟨v, hv, hfits⟩ := hlabelled.fits (.cell a) id hid
    refine ⟨v, hv, ?_⟩
    cases v with
    | value => exact Or.inl rfl
    | formula => exact Or.inr (Or.inl rfl)
    | blank => exact Or.inr (Or.inr rfl)
    | range => exact hfits.elim
  case home => exact fun id x a shown hid => hlabelled.find?_home hid
  case ranges =>
    intro r id hid
    exact ⟨hlabelled.get?_range hid, hlabelled.covers (.range r) id hid⟩
  case constants =>
    intro id v hid hkind u
    rw [Bool.eq_false_iff]
    intro hedge
    rcases hwired.formula_or_range_of_edge hedge with ⟨x, home, shown, hget⟩ | ⟨r, hget⟩
    · obtain rfl := Option.some.inj (hid.symm.trans hget)
      exact hkind.elim nofun nofun
    · obtain rfl := Option.some.inj (hid.symm.trans hget)
      exact hkind.elim nofun nofun
  case names =>
    intro id x a shown hid d hd hcovers
    obtain ⟨u, hu, hedge, -⟩ := h.passable.edge_of_names hid hd hcovers
    exact ⟨u, hu, hedge⟩
  case fed =>
    intro r id hid a ha
    exact hwired.exists_edge (hwired.fed r id hid a ha) hid
  case order => exact h.order
  case cycled =>
    intro id hid
    obtain ⟨x, home, shown, hget⟩ := h.passable.formulas id hid
    exact ⟨_, hget, rfl⟩

/-! ## One operation -/

/-- A pass over a sheet that is ready succeeds and leaves it ready. -/
theorem Ready.exists_pass (h : l.Ready functions) :
    ∃ t, l.pass functions = (.ok (), ⟨t, l.order⟩) ∧ l.sheet.Reshown t
      ∧ (⟨t, l.order⟩ : LoadedSheet).Ready functions := by
  obtain ⟨t, ht, hshown, -⟩ := h.passable.exists_pass_marked
  exact ⟨t, ht, hshown, h.reshown hshown⟩

theorem numbered_edit (hl : l.sheet.Numbered) (h : l.edit a v = .ok m) : m.sheet.Numbered := by
  rw [edit] at h
  obtain ⟨found, -, h⟩ := exists_of_bind_eq_ok h
  cases found with
  | some id =>
      dsimp only at h
      split at h
      · exact Except.ok.inj h ▸ hl.replace id (.value v)
      · exact Except.ok.inj h ▸ hl.replace id (.value v)
      · cases h
      · cases h
      · cases h
  | none =>
      dsimp only at h
      split at h
      · exact Except.ok.inj h ▸ hl
      · obtain ⟨s, hs, h⟩ := exists_of_bind_eq_ok h
        obtain rfl := Except.ok.inj h
        exact Sheet.eq_grow_of_addCell hs ▸ hl.grow (.cell a) (.value v)

end LoadedSheet

namespace Engine

/-- An engine with certain functions whose sheet, if it has one, is ready for passes. -/
structure InOrder (functions : Registry) (e : Engine) : Prop where
  registry : e.functions = functions
  loaded : ∀ l, e.sheet = some l → l.Ready functions ∧ l.sheet.Numbered

variable {functions : Registry} {e : Engine} {l m : LoadedSheet} {a : Address} {content : String}

theorem inOrder_some (h : e.functions = functions) (hl : l.Ready functions)
    (hnumbered : l.sheet.Numbered) (passes : Nat) :
    InOrder functions { e with sheet := some l, passes } :=
  ⟨h, fun _ hm => Option.some.inj hm ▸ ⟨hl, hnumbered⟩⟩

theorem InOrder.load (h : e.InOrder functions) (rows : List (List String)) :
    (e.load rows).2.InOrder functions := by
  obtain ⟨s, hs, hwired, -⟩ := Sheet.exists_ofRows e.functions 0 rows
  rcases e.load_built hs hwired with ⟨id, -, hfail⟩ | ⟨hpassable, t, hok, hshown, -⟩
  · rw [hfail]
    exact ⟨h.registry, nofun⟩
  · rw [hok]
    have hready : LoadedSheet.Ready functions ⟨s, s.order⟩ := ⟨h.registry ▸ hpassable, rfl⟩
    exact inOrder_some h.registry (hready.reshown hshown)
      (hshown.toSameOutline.numbered (Sheet.numbered_ofRows hs)) _

theorem InOrder.recompute (h : e.InOrder functions) : e.recompute.2.InOrder functions := by
  cases hl : e.sheet with
  | none => rwa [recompute_of_none hl]
  | some l =>
      obtain ⟨hready, hnumbered⟩ := h.loaded l hl
      obtain ⟨t, ht, hshown, hready'⟩ := hready.exists_pass
      rw [recompute_of_pass hl (h.registry ▸ ht)]
      exact inOrder_some h.registry hready' (hshown.toSameOutline.numbered hnumbered) _

theorem edit_of_typed (h : e.typed a content = .ok m) :
    ∃ l, e.sheet = some l ∧ l.edit a (Value.ofContent content) = .ok m := by
  rw [typed] at h
  split at h
  · cases h
  · obtain ⟨l, hl, h⟩ := exists_of_bind_eq_ok h
    rw [Engine.loaded] at hl
    split at hl
    · next l' hsheet => exact ⟨l', hsheet, Except.ok.inj hl ▸ h⟩
    · cases hl

theorem InOrder.setAt (h : e.InOrder functions) (a : Address) (content : String) :
    (e.setAt a content).2.InOrder functions := by
  rw [Engine.setAt]
  cases htyped : e.typed a content with
  | error failure => exact h
  | ok m =>
      obtain ⟨l, hl, hedit⟩ := edit_of_typed htyped
      obtain ⟨hready, hnumbered⟩ := h.loaded l hl
      have hedited : ({ e with sheet := some m } : Engine).InOrder functions :=
        inOrder_some h.registry (hready.of_edit hedit) (LoadedSheet.numbered_edit hnumbered hedit)
          e.passes
      exact hedited.recompute

theorem inOrder_ofConfig (config : Config) :
    (ofConfig config).InOrder (ofConfig config).functions := ⟨rfl, nofun⟩

/-- Whatever an engine has been asked, the parts of its sheet belong together. -/
theorem run_inStep (config : Config) (requests : List Request) {l : LoadedSheet}
    (hl : ((ofConfig config).run requests).sheet = some l) :
    l.InStep (ofConfig config).functions := by
  have h := run_invariant (p := InOrder (ofConfig config).functions)
    (fun _ rows h => h.load rows) (fun _ a content h => h.setAt a content)
    (fun _ h => h.recompute) (inOrder_ofConfig config) requests
  obtain ⟨hready, hnumbered⟩ := h.loaded l hl
  exact hready.inStep hnumbered

/-- Cells that were blank, free or typed are edited beside a range, a formula on a cycle and a
reference off the sheet. -/
theorem run_inStep_edited :
    let requests := [.load [["p", "=A1&Z9", "=VLOOKUP(A1,A1:B1,2)"], ["=A2&B2", "", ""]],
      .setAt ⟨0, 1, 1⟩ "q", .set "C2" "r", .set "A1" "s", .set "B1" "t", .recompute]
    let e := (ofConfig Config.standard).run requests
    ∃ l, e.sheet = some l ∧ l.sheet.store.size = 7 ∧ l.order.cycled = [⟨3⟩]
      ∧ l.InStep (ofConfig Config.standard).functions := by
  intro requests e
  have hfacts : (e.sheet.any fun l =>
      l.sheet.store.size = 7 ∧ l.order.cycled = [⟨3⟩]) = true := by decide +kernel
  obtain ⟨l, hl, hfacts⟩ := (Option.any_eq_true _ _).mp hfacts
  obtain ⟨hsize, hcycled⟩ := of_decide_eq_true hfacts
  exact ⟨l, hl, hsize, hcycled, run_inStep Config.standard requests hl⟩

end Engine

end Recalc
