import Recalc.Proofs.Evaluation.Caching
import Recalc.Proofs.Sheet.Wiring

/-!
# Changes of values

An edit of a cell that has a vertex and an evaluation pass change the values of cells and fill or
drop caches. They leave the vertices, what these stand for, the formulas and the arrows as they are.
-/

namespace Recalc

/-- A vertex without its value. -/
def Vertex.outline : Vertex → Vertex
  | .formula x home _ => .formula x home .empty
  | .value _ => .blank
  | .range r => .range r
  | .blank => .blank

theorem Dependency.fits_outline_iff (d : Dependency) (v : Vertex) :
    d.Fits v.outline ↔ d.Fits v := by
  cases d <;> cases v <;> exact Iff.rfl

namespace Sheet

/-- The sheets differ in the values of cells and in caches only. -/
structure SameOutline (s t : Sheet) : Prop where
  graph : t.graph = s.graph
  cells : t.cells = s.cells
  ranges : t.ranges = s.ranges
  outline : ∀ id, (t.store.get? id).map Vertex.outline = (s.store.get? id).map Vertex.outline

variable {s t u : Sheet} {reads : Dependency → Dependency → Prop} {d : Dependency} {id : VertexId}
  {x : Expr} {home : Address} {shown : Value}

namespace SameOutline

theorem refl (s : Sheet) : s.SameOutline s := ⟨rfl, rfl, rfl, fun _ => rfl⟩

theorem symm (h : s.SameOutline t) : t.SameOutline s :=
  ⟨h.graph.symm, h.cells.symm, h.ranges.symm, fun id => (h.outline id).symm⟩

theorem trans (h : s.SameOutline t) (h' : t.SameOutline u) : s.SameOutline u :=
  ⟨h'.graph.trans h.graph, h'.cells.trans h.cells, h'.ranges.trans h.ranges,
    fun id => (h'.outline id).trans (h.outline id)⟩

theorem find? (h : s.SameOutline t) (d : Dependency) : t.find? d = s.find? d := by
  cases d with
  | cell a => rw [Sheet.find?, Sheet.find?, h.cells]
  | range r => rw [Sheet.find?, Sheet.find?, h.ranges]

theorem covers_iff (h : s.SameOutline t) (d : Dependency) : t.Covers d ↔ s.Covers d := by
  cases d <;> rw [Covers, Covers, h.cells]

theorem exists_get? (h : s.SameOutline t) {v : Vertex} (hv : s.store.get? id = some v) :
    ∃ w, t.store.get? id = some w ∧ w.outline = v.outline := by
  have := h.outline id
  rw [hv, Option.map_some] at this
  exact Option.map_eq_some_iff.mp this

theorem exists_formula (h : s.SameOutline t)
    (hid : s.store.get? id = some (.formula x home shown)) :
    ∃ shown', t.store.get? id = some (.formula x home shown') := by
  obtain ⟨w, hw, hout⟩ := h.exists_get? hid
  cases w with
  | formula y home' shown' =>
      obtain ⟨rfl, rfl, -⟩ := Vertex.formula.inj hout
      exact ⟨shown', hw⟩
  | _ => cases hout

theorem size (h : s.SameOutline t) : id.index < t.store.size ↔ id.index < s.store.size := by
  rw [Store.lt_size_iff, Store.lt_size_iff]
  constructor
  · rintro ⟨v, hv⟩
    obtain ⟨w, hw, -⟩ := h.symm.exists_get? hv
    exact ⟨w, hw⟩
  · rintro ⟨v, hv⟩
    obtain ⟨w, hw, -⟩ := h.exists_get? hv
    exact ⟨w, hw⟩

theorem labelled (h : s.SameOutline t) (hs : s.Labelled) : t.Labelled where
  graph := h.graph ▸ hs.graph
  contains_iff id := by rw [h.graph, hs.contains_iff, h.size]
  covers d id hd := (h.covers_iff d).mpr (hs.covers d id (h.find? d ▸ hd))
  fits d id hd := by
    obtain ⟨v, hv, hfits⟩ := hs.fits d id (h.find? d ▸ hd)
    obtain ⟨w, hw, hout⟩ := h.exists_get? hv
    refine ⟨w, hw, ?_⟩
    rwa [← Dependency.fits_outline_iff, hout, Dependency.fits_outline_iff]
  inj d e id hd he := hs.inj d e id (h.find? d ▸ hd) (h.find? e ▸ he)
  label id hid := by
    obtain ⟨d, hd⟩ := hs.label id (h.size.mp hid)
    exact ⟨d, (h.find? d).trans hd⟩

theorem wired (h : s.SameOutline t) (hs : s.Wired reads) : t.Wired reads where
  labelled := h.labelled hs.labelled
  reader e d hread := by
    rw [h.find?]
    exact hs.reader e d hread
  source e d hread := by
    rw [h.find?]
    exact hs.source e d hread
  edge_iff u v := by
    simp only [h.graph, h.find?]
    exact hs.edge_iff u v
  fed r id hid := hs.fed r id (h.find? _ ▸ hid)

theorem formulaAt (h : s.SameOutline t) (hs : s.Labelled) (a : Address) :
    t.formulaAt a = s.formulaAt a := by
  apply Option.ext
  intro x
  rw [hs.formulaAt_eq_some_iff, (h.labelled hs).formulaAt_eq_some_iff]
  constructor
  · rintro ⟨id, shown, hid⟩
    exact ⟨id, h.symm.exists_formula hid⟩
  · rintro ⟨id, shown, hid⟩
    exact ⟨id, h.exists_formula hid⟩

theorem reads_iff (h : s.SameOutline t) (hs : s.Labelled) (functions : Registry)
    (e f : Dependency) : t.Reads functions e f ↔ s.Reads functions e f := by
  simp only [Reads, h.formulaAt hs, h.covers_iff]

theorem reads_eq (h : s.SameOutline t) (hs : s.Labelled) (functions : Registry) :
    t.Reads functions = s.Reads functions :=
  funext fun e => funext fun f => propext (h.reads_iff hs functions e f)

/-- The arrows are still those of the formulas. -/
theorem wired_reads (h : s.SameOutline t) {functions : Registry}
    (hs : s.Wired (s.Reads functions)) : t.Wired (t.Reads functions) :=
  (h.wired hs).congr fun e f => (h.reads_iff hs.labelled functions e f).symm

end SameOutline

/-! ## Showing a value -/

/-- The sheets differ in what formulas show and in caches only. -/
structure Reshown (s t : Sheet) : Prop extends s.SameOutline t where
  constantAt : ∀ a, t.constantAt a = s.constantAt a

theorem Reshown.refl (s : Sheet) : s.Reshown s := ⟨SameOutline.refl s, fun _ => rfl⟩

theorem Reshown.trans (h : s.Reshown t) (h' : t.Reshown u) : s.Reshown u :=
  ⟨h.toSameOutline.trans h'.toSameOutline, fun a => (h'.constantAt a).trans (h.constantAt a)⟩

theorem Store.get?_replace (s : Store) (hid : id.index < s.size) (v : Vertex) (j : VertexId) :
    (s.replace id v).get? j = if j = id then some v else s.get? j := by
  have hindex : id.index = j.index ↔ j = id :=
    ⟨fun h => congrArg VertexId.mk h.symm, fun h => congrArg VertexId.index h.symm⟩
  rw [Store.get?, Store.replace, Array.getElem?_setIfInBounds]
  by_cases hj : j = id
  · rw [if_pos (hindex.mpr hj), if_pos hj]
    exact if_pos hid
  · rw [if_neg (hj ∘ hindex.mp), if_neg hj, Store.get?]

/-- A formula can be given a value. -/
theorem get?_setValue (hid : s.store.get? id = some (.formula x home shown)) (v : Value)
    (j : VertexId) :
    (s.setValue id v).store.get? j =
      if j = id then some (.formula x home v) else s.store.get? j := by
  have hsize := (s.store.lt_size_iff id).mpr ⟨_, hid⟩
  rw [← Store.get?_replace s.store hsize, setValue, Store.setValue, hid]
  rfl

theorem caches_setValue (s : Sheet) (id : VertexId) (v : Value) :
    (s.setValue id v).store.caches = s.store.caches := by
  rw [setValue, Store.setValue]
  split <;> rfl

theorem reshown_setValue (hid : s.store.get? id = some (.formula x home shown)) (v : Value) :
    s.Reshown (s.setValue id v) := by
  refine ⟨⟨rfl, rfl, rfl, fun j => ?_⟩, fun a => ?_⟩
  · rw [get?_setValue hid]
    by_cases hj : j = id
    · rw [if_pos hj, hj, hid]
      rfl
    · rw [if_neg hj]
  · have hfind : (s.setValue id v).find? (.cell a) = s.find? (.cell a) := rfl
    rw [Sheet.constantAt, Sheet.constantAt, vertexAt, vertexAt, hfind]
    cases s.find? (.cell a) with
    | none => rfl
    | some j =>
        rw [Option.bind_some, Option.bind_some, get?_setValue hid]
        by_cases hj : j = id
        · rw [if_pos hj, hj, hid]
        · rw [if_neg hj]

theorem cellValue_of_find? {a : Address} (ha : s.cells.inBounds a = true)
    (hid : s.find? (.cell a) = some id) :
    s.view.cellValue a = ((s.store.get? id).bind Vertex.value?).getD (.error .badReference) := by
  have hget : s.cells.get a = .ok (some id) := (if_pos ha).trans (congrArg Except.ok hid)
  simp only [View.cellValue, view, hget]
  rfl

theorem cellValue_of_find?_eq_none {a : Address} (ha : s.cells.inBounds a = true)
    (hnone : s.find? (.cell a) = none) : s.view.cellValue a = .empty := by
  have hget : s.cells.get a = .ok none := (if_pos ha).trans (congrArg Except.ok hnone)
  simp only [View.cellValue, view, hget]

/-- The values that are read are the same but for that of the formula. -/
theorem cellValue_setValue (h : s.Labelled)
    (hid : s.store.get? id = some (.formula x home shown)) (v : Value) (a : Address) :
    (s.setValue id v).view.cellValue a = if a = home then v else s.view.cellValue a := by
  have hhome := h.find?_home hid
  by_cases ha : a = home
  · subst ha
    rw [if_pos rfl, cellValue_of_find? (s := s.setValue id v) (h.covers _ _ hhome) hhome,
      get?_setValue hid, if_pos rfl]
    rfl
  rw [if_neg ha]
  by_cases hin : s.cells.inBounds a = true
  · cases hfind : s.find? (.cell a) with
    | none =>
        rw [cellValue_of_find?_eq_none hin hfind,
          cellValue_of_find?_eq_none (s := s.setValue id v) hin hfind]
    | some j =>
        have hj : j ≠ id := by
          rintro rfl
          exact ha (Dependency.cell.inj (h.inj _ _ _ hfind hhome))
        rw [cellValue_of_find? hin hfind,
          cellValue_of_find? (s := s.setValue id v) hin hfind, get?_setValue hid, if_neg hj]
  · have hout : ∀ t : Sheet, t.cells = s.cells → t.view.cellValue a = .error .badReference := by
      intro t ht
      exact View.cellValue_eq_error (by rw [view, ht]; exact hin)
    rw [hout s rfl, hout (s.setValue id v) rfl]

end Sheet

end Recalc
