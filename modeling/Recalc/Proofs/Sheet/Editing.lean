import Recalc.Proofs.Sheet.Passing

/-!
# Edits

An edit changes the typed value of one cell. The formulas and the arrows stay, so it takes no node
onto a cycle or off it, and the pass that follows succeeds.
-/

namespace Recalc

namespace Sheet

/-- Content that can be typed into a cell: neither it nor what stands there is a formula. -/
structure Accepts (s : Sheet) (a : Address) (content : String) : Prop where
  content : Expr.isFormula content = false
  inBounds : s.cells.inBounds a = true
  free : s.formulaAt a = none

/-- The value typed into a cell without a formula, and nothing else, is another one. -/
structure Edited (s : Sheet) (a : Address) (v : Value) (t : Sheet) : Prop where
  inBounds : s.cells.inBounds a = true
  free : s.formulaAt a = none
  sheet : t.cells.sheet = s.cells.sheet
  width : t.cells.width = s.cells.width
  height : t.cells.height = s.cells.height
  formulaAt : ∀ b, t.formulaAt b = s.formulaAt b
  constantAt : ∀ b, t.constantAt b = if b = a then v else s.constantAt b

variable {functions : Registry} {s : Sheet} {a : Address} {id : VertexId} {v : Value}

/-- A cell that has a vertex without a formula can be given a value. -/
theorem edited_replace (h : s.Labelled) (hid : s.find? (.cell a) = some id) {w : Vertex}
    (hw : s.store.get? id = some w) (hblank : w.outline = .blank) (v : Value) :
    let t : Sheet := { s with store := s.store.replace id (.value v) }
    s.SameOutline t ∧ s.Edited a v t := by
  intro t
  have hget : ∀ j, t.store.get? j = if j = id then some (.value v) else s.store.get? j :=
    Store.get?_replace s.store ((s.store.lt_size_iff id).mpr ⟨w, hw⟩) (.value v)
  have hsame : s.SameOutline t := by
    refine ⟨rfl, rfl, rfl, fun j => ?_⟩
    rw [hget]
    by_cases hj : j = id
    · rw [if_pos hj, hj, hw, Option.map_some, Option.map_some, hblank]
      rfl
    · rw [if_neg hj]
  have hvertex : ∀ b, t.vertexAt b = if b = a then some (.value v) else s.vertexAt b := by
    intro b
    have hfind : t.find? (.cell b) = s.find? (.cell b) := rfl
    rw [vertexAt, vertexAt, hfind]
    by_cases hb : b = a
    · rw [if_pos hb, hb, hid, Option.bind_some, hget, if_pos rfl]
    · rw [if_neg hb]
      cases hj : s.find? (.cell b) with
      | none => rfl
      | some j =>
          have hne : j ≠ id := by
            rintro rfl
            exact hb (Dependency.cell.inj (h.inj _ _ _ hj hid))
          rw [Option.bind_some, Option.bind_some, hget, if_neg hne]
  refine ⟨hsame, h.covers _ _ hid, ?_, rfl, rfl, rfl, hsame.formulaAt h, fun b => ?_⟩
  · rw [Sheet.formulaAt, vertexAt, hid, Option.bind_some, hw]
    cases w with
    | formula => cases hblank
    | _ => rfl
  · rw [Sheet.constantAt, Sheet.constantAt, hvertex]
    by_cases hb : b = a
    · rw [if_pos hb, if_pos hb]
    · rw [if_neg hb, if_neg hb]

/-- A cell that has no vertex can be given a value. -/
theorem edited_grow (h : s.Labelled) (ha : s.cells.inBounds a = true)
    (hnew : s.find? (.cell a) = none) (v : Value) :
    s.Edited a v (s.grow (.cell a) (.value v)) := by
  have hnone : s.vertexAt a = none := by rw [vertexAt, hnew, Option.bind_none]
  refine ⟨ha, ?_, rfl, rfl, rfl, fun b => ?_, fun b => ?_⟩
  · rw [Sheet.formulaAt, hnone]
  · rw [Sheet.formulaAt, Sheet.formulaAt, vertexAt_grow h]
    by_cases hb : b = a
    · rw [if_pos hb, hb, hnone]
    · rw [if_neg hb]
  · rw [Sheet.constantAt, Sheet.constantAt, vertexAt_grow h]
    by_cases hb : b = a
    · rw [if_pos hb, if_pos hb]
    · rw [if_neg hb, if_neg hb]

theorem Edited.refl (ha : s.cells.inBounds a = true) (hnone : s.vertexAt a = none) :
    s.Edited a .empty s := by
  refine ⟨ha, ?_, rfl, rfl, rfl, fun b => rfl, fun b => ?_⟩
  · rw [Sheet.formulaAt, hnone]
  · by_cases hb : b = a
    · rw [if_pos hb, hb, Sheet.constantAt, hnone]
    · rw [if_neg hb]

/-- An edit changes nothing about which edits are accepted. -/
theorem Edited.accepts_iff {t : Sheet} (h : s.Edited a v t) (b : Address) (content : String) :
    t.Accepts b content ↔ s.Accepts b content := by
  have hin : t.cells.inBounds b = s.cells.inBounds b := by
    rw [CellMap.inBounds, CellMap.inBounds, h.sheet, h.width, h.height]
  constructor
  · intro hb
    exact ⟨hb.content, hin.symm.trans hb.inBounds, (h.formulaAt b).symm.trans hb.free⟩
  · intro hb
    exact ⟨hb.content, hin.trans hb.inBounds, (h.formulaAt b).trans hb.free⟩

theorem Edited.reshown {t u : Sheet} (h : s.Edited a v t) (ht : t.Labelled) (hu : t.Reshown u) :
    s.Edited a v u where
  inBounds := h.inBounds
  free := h.free
  sheet := hu.cells ▸ h.sheet
  width := hu.cells ▸ h.width
  height := hu.cells ▸ h.height
  formulaAt b := (hu.toSameOutline.formulaAt ht b).trans (h.formulaAt b)
  constantAt b := (hu.constantAt b).trans (h.constantAt b)

/-- A sheet stays ready for passes when a cell is added that nothing reads. -/
theorem Passable.grow (h : s.Passable functions s.order) (ha : s.cells.inBounds a = true)
    (hnew : s.find? (.cell a) = none) (v : Value) :
    let t := s.grow (.cell a) (.value v)
    t.Passable functions t.order := by
  intro t
  have hedited := edited_grow h.wired.labelled ha hnew v
  have hlinked := h.wired.toLinked.grow (d := .cell a) ha (w := .value v) trivial hnew
  have hwired : t.Wired (s.Reads functions) :=
    hlinked.wired h.wired rfl fun _ _ hread => hread
  have harranges : t.graph.Arranges t.order := hwired.labelled.graph.arranges_sort
  refine ⟨hwired.congr fun e f => ?_, harranges, fun id hid => ?_⟩
  · simp only [Reads, hedited.formulaAt, covers_grow, t]
  · have hcycle : s.graph.OnCycle id := by
      refine Relation.TransGen.mono (fun u v huv => ?_) id id
        ((harranges.mem_cycled_iff id).mp hid)
      have hgraph : t.graph = s.graph.addNode s.store.nextId := graph_grow _ _ _
      rw [hgraph] at huv
      exact (h.wired.labelled.graph.edge_addNode _ u v).mp huv
    obtain ⟨x, home, shown, hget⟩ := h.formulas id ((h.arranges.mem_cycled_iff id).mpr hcycle)
    refine ⟨x, home, shown, ?_⟩
    have hstore : t.store = s.store.insert (.value v) := store_grow _ _ _
    rw [hstore, Store.get?_insert, if_neg, hget]
    exact nextId_ne ((s.store.lt_size_iff id).mpr ⟨_, hget⟩)

end Sheet

namespace LoadedSheet

/-- A sheet on which passes succeed, with the order that its graph has. -/
structure Ready (functions : Registry) (l : LoadedSheet) : Prop where
  passable : l.sheet.Passable functions l.order
  order : l.order = l.sheet.order

/-- What formulas show makes no difference to which passes succeed. -/
theorem Ready.reshown {functions : Registry} {l : LoadedSheet} (h : l.Ready functions) {t : Sheet}
    (hshown : l.sheet.Reshown t) : Ready functions ⟨t, l.order⟩ where
  passable := hshown.toSameOutline.passable h.passable
  order := by
    rw [Sheet.order, hshown.graph]
    exact h.order

/-- An edit changes one value and leaves the sheet ready; it is refused off the sheet and where a
formula stands. -/
theorem Ready.edit_cases {functions : Registry} {l : LoadedSheet} (h : l.Ready functions)
    (a : Address) (v : Value) :
    (∃ l', l.edit a v = .ok l' ∧ l'.Ready functions ∧ l.sheet.Edited a v l'.sheet)
      ∨ (∃ failure, l.edit a v = .error failure)
        ∧ ¬ (l.sheet.cells.inBounds a = true ∧ l.sheet.formulaAt a = none) := by
  obtain ⟨s, o⟩ := l
  have horder : o = s.order := h.order
  have hlabelled : s.Labelled := h.passable.wired.labelled
  rw [LoadedSheet.edit, CellMap.get]
  by_cases ha : s.cells.inBounds a = true
  · rw [if_pos ha]
    cases hfind : s.cells.vertices[a]? with
    | some id =>
        obtain ⟨w, hw, hfits⟩ := hlabelled.fits (.cell a) id hfind
        have hreplace : w.outline = .blank →
            (⟨{ s with store := s.store.replace id (.value v) }, o⟩ : LoadedSheet).Ready functions
              ∧ s.Edited a v { s with store := s.store.replace id (.value v) } := by
          intro hblank
          obtain ⟨hsame, hedited⟩ := Sheet.edited_replace hlabelled hfind hw hblank v
          exact ⟨⟨hsame.passable h.passable, horder⟩, hedited⟩
        simp only [bind, Except.bind, hw]
        cases w with
        | value _ => exact Or.inl ⟨_, rfl, hreplace rfl⟩
        | blank => exact Or.inl ⟨_, rfl, hreplace rfl⟩
        | formula x home shown =>
            obtain rfl : home = a := hfits
            have hx := hlabelled.formulaAt_eq_some_iff.mpr ⟨id, shown, hw⟩
            refine Or.inr ⟨⟨_, rfl⟩, fun hfree => ?_⟩
            exact Option.some_ne_none x (hx.symm.trans hfree.2)
        | range _ => exact hfits.elim
    | none =>
        simp only [bind, Except.bind]
        apply Or.inl
        by_cases hv : v.isEmpty = true
        · have hempty : v = .empty := by
            cases v with
            | empty => rfl
            | _ => cases hv
          have hnone : s.vertexAt a = none := by rw [Sheet.vertexAt, Sheet.find?, hfind]; rfl
          rw [if_pos hv]
          exact ⟨_, rfl, h, hempty ▸ Sheet.Edited.refl ha hnone⟩
        · have hpassable : s.Passable functions s.order := horder ▸ h.passable
          rw [if_neg hv, Sheet.addCell_eq_grow ha]
          exact ⟨_, rfl, ⟨hpassable.grow ha hfind v, rfl⟩, Sheet.edited_grow hlabelled ha hfind v⟩
  · rw [if_neg ha]
    exact Or.inr ⟨⟨_, rfl⟩, fun hin => ha hin.1⟩

theorem Ready.of_edit {functions : Registry} {l m : LoadedSheet} (h : l.Ready functions)
    {a : Address} {v : Value} (hedit : l.edit a v = .ok m) : m.Ready functions := by
  rcases h.edit_cases a v with ⟨m', hm', hready, -⟩ | ⟨⟨failure, hfail⟩, -⟩
  · exact Except.ok.inj (hm'.symm.trans hedit) ▸ hready
  · cases hfail.symm.trans hedit

end LoadedSheet

end Recalc
