import Recalc.Proofs.Graph.Building
import Recalc.Sheet

/-!
# What vertices stand for

Every vertex of a sheet stands for one cell or one range on it, and is a node of the graph. A sheet
grows by a vertex for a cell or range that had none; vertices that are there stay as they are.
-/

namespace Recalc

/-- A vertex that can stand for a cell or range. -/
def Dependency.Fits : Dependency → Vertex → Prop
  | .cell a, .formula _ home _ => home = a
  | .cell _, .value _ => True
  | .cell _, .blank => True
  | .cell _, .range _ => False
  | .range r, .range covered => covered = r
  | .range _, .value _ => False
  | .range _, .formula .. => False
  | .range _, .blank => False

theorem Store.lt_size_iff (s : Store) (id : VertexId) :
    id.index < s.size ↔ ∃ v, s.get? id = some v := by
  rw [Store.get?, Store.size]
  constructor
  · intro h
    exact ⟨_, Array.getElem?_eq_getElem h⟩
  · rintro ⟨_, h⟩
    exact (Array.getElem?_eq_some_iff.mp h).1

theorem Store.mem_toList_iff (s : Store) (id : VertexId) (v : Vertex) :
    (id, v) ∈ s.toList ↔ s.get? id = some v := by
  rw [Store.toList, Store.get?, List.mem_map, ← Array.getElem?_toList]
  constructor
  · rintro ⟨⟨w, i⟩, hmem, heq⟩
    obtain ⟨rfl, rfl⟩ := Prod.mk.inj heq
    exact List.mem_zipIdx_iff_getElem?.mp hmem
  · intro h
    exact ⟨(v, id.index), List.mem_zipIdx_iff_getElem?.mpr h, rfl⟩

namespace Sheet

/-- The vertex of a cell or range. -/
def find? (s : Sheet) : Dependency → Option VertexId
  | .cell a => s.cells.vertices[a]?
  | .range r => s.ranges.get? r

/-- All of the cell or range is on the sheet. -/
def Covers (s : Sheet) : Dependency → Prop
  | .cell a => s.cells.inBounds a = true
  | .range r => s.cells.rangeInBounds r = true

/-- Each vertex stands for one cell or range on the sheet, and the nodes of the graph are the
vertices. -/
structure Labelled (s : Sheet) : Prop where
  graph : s.graph.WellFormed
  contains_iff : ∀ id, s.graph.contains id = true ↔ id.index < s.store.size
  covers : ∀ d id, s.find? d = some id → s.Covers d
  fits : ∀ d id, s.find? d = some id → ∃ v, s.store.get? id = some v ∧ d.Fits v
  inj : ∀ d e id, s.find? d = some id → s.find? e = some id → d = e
  label : ∀ id, id.index < s.store.size → ∃ d, s.find? d = some id

/-- What a sheet keeps while vertices of blank cells and of ranges are added. -/
structure Extends (s t : Sheet) : Prop where
  sheet : t.cells.sheet = s.cells.sheet
  width : t.cells.width = s.cells.width
  height : t.cells.height = s.cells.height
  found : ∀ d id, s.find? d = some id → t.find? d = some id
  kept : ∀ id v, s.store.get? id = some v → t.store.get? id = some v
  fresh : ∀ id v, s.store.get? id = none → t.store.get? id = some v →
    v = .blank ∨ ∃ r, v = .range r
  caches : t.store.caches = s.store.caches

variable {s t u : Sheet} {d e : Dependency} {v : Vertex} {id : VertexId}

theorem Labelled.lt_size (h : s.Labelled) (hd : s.find? d = some id) : id.index < s.store.size := by
  obtain ⟨v, hv, -⟩ := h.fits d id hd
  exact (s.store.lt_size_iff id).mpr ⟨v, hv⟩

theorem Labelled.contains (h : s.Labelled) (hd : s.find? d = some id) :
    s.graph.contains id = true := (h.contains_iff id).mpr (h.lt_size hd)

namespace Extends

theorem refl (s : Sheet) : s.Extends s :=
  ⟨rfl, rfl, rfl, fun _ _ h => h, fun _ _ h => h, fun _ _ h h' => absurd (h.symm.trans h') nofun,
    rfl⟩

theorem trans (h : s.Extends t) (h' : t.Extends u) : s.Extends u where
  sheet := h'.sheet.trans h.sheet
  width := h'.width.trans h.width
  height := h'.height.trans h.height
  found d id hd := h'.found d id (h.found d id hd)
  kept id v hv := h'.kept id v (h.kept id v hv)
  fresh id v hs hu := by
    cases ht : t.store.get? id with
    | none => exact h'.fresh id v ht hu
    | some w =>
        obtain rfl := Option.some.inj ((h'.kept id w ht).symm.trans hu)
        exact h.fresh id w hs ht
  caches := h'.caches.trans h.caches

theorem covers_iff (h : s.Extends t) (d : Dependency) : t.Covers d ↔ s.Covers d := by
  cases d <;> simp only [Covers, CellMap.rangeInBounds, CellMap.inBounds, h.sheet, h.width,
    h.height]

end Extends

/-! ## Adding a vertex -/

/-- The sheet with one more vertex, which stands for a cell or range. -/
def grow (s : Sheet) (d : Dependency) (v : Vertex) : Sheet :=
  match d with
  | .cell a =>
      { s.addVertex v with
        cells := { s.cells with vertices := s.cells.vertices.insert a s.store.nextId } }
  | .range r => { s.addVertex v with ranges := s.ranges.set r s.store.nextId }

@[simp] theorem store_grow (s : Sheet) (d : Dependency) (v : Vertex) :
    (s.grow d v).store = s.store.insert v := by
  cases d <;> rfl

@[simp] theorem graph_grow (s : Sheet) (d : Dependency) (v : Vertex) :
    (s.grow d v).graph = s.graph.addNode s.store.nextId := by
  cases d <;> rfl

theorem addCell_eq_grow {a : Address} (ha : s.cells.inBounds a = true) (v : Vertex) :
    s.addCell a v = .ok (s.grow (.cell a) v) := by
  simp only [addCell, CellMap.set, ha, if_true]
  rfl

theorem find?_grow (s : Sheet) (d e : Dependency) (v : Vertex) :
    (s.grow d v).find? e = if e = d then some s.store.nextId else s.find? e := by
  cases d with
  | cell a =>
      cases e with
      | cell b =>
          simp only [grow, find?, Std.TreeMap.getElem?_insert, Std.LawfulEqOrd.compare_eq_iff_eq,
            Dependency.cell.injEq, eq_comm (a := a)]
      | range r => simp [grow, find?, addVertex]
  | range r =>
      cases e with
      | cell b => simp [grow, find?, addVertex]
      | range r' =>
          simp only [grow, find?, RangeMap.get?_set, addVertex, Dependency.range.injEq,
            eq_comm (a := r)]

theorem covers_grow (s : Sheet) (d e : Dependency) (v : Vertex) :
    (s.grow d v).Covers e ↔ s.Covers e := by
  cases d <;> cases e <;> exact Iff.rfl

theorem nextId_ne (hlt : id.index < s.store.size) : id ≠ s.store.nextId := by
  rintro rfl
  exact Nat.lt_irrefl _ hlt

theorem Labelled.grow (h : s.Labelled) (hd : s.Covers d) (hv : d.Fits v) (hnew : s.find? d = none) :
    (s.grow d v).Labelled where
  graph := by
    rw [graph_grow]
    exact h.graph.addNode _
  contains_iff id := by
    rw [graph_grow, Graph.contains_addNode, h.contains_iff, store_grow, Store.size_insert,
      Nat.lt_succ_iff_lt_or_eq]
    exact or_congr_right ⟨fun heq => heq ▸ rfl, fun heq => congrArg VertexId.mk heq⟩
  covers e id he := by
    rw [covers_grow]
    rw [find?_grow] at he
    split at he
    · next heq => exact heq ▸ hd
    · exact h.covers e id he
  fits e id he := by
    rw [find?_grow] at he
    rw [store_grow, Store.get?_insert]
    split at he
    · next heq =>
        rw [if_pos (Option.some.inj he).symm]
        exact ⟨v, rfl, heq ▸ hv⟩
    · rw [if_neg (nextId_ne (h.lt_size he))]
      exact h.fits e id he
  inj e f id he hf := by
    rw [find?_grow] at he hf
    split at he <;> split at hf
    · next he' hf' => exact he'.trans hf'.symm
    · exact absurd (Option.some.inj he).symm (nextId_ne (h.lt_size hf))
    · exact absurd (Option.some.inj hf).symm (nextId_ne (h.lt_size he))
    · exact h.inj e f id he hf
  label id hid := by
    rw [store_grow, Store.size_insert, Nat.lt_succ_iff_lt_or_eq] at hid
    rcases hid with hid | hid
    · obtain ⟨e, he⟩ := h.label id hid
      refine ⟨e, ?_⟩
      rw [find?_grow, if_neg, he]
      rintro rfl
      exact absurd (hnew.symm.trans he) nofun
    · refine ⟨d, ?_⟩
      rw [find?_grow, if_pos rfl]
      exact congrArg (some ∘ VertexId.mk) hid.symm

theorem extends_grow (hnew : s.find? d = none)
    (hv : v = .blank ∨ ∃ r, v = .range r) : s.Extends (s.grow d v) where
  sheet := by cases d <;> rfl
  width := by cases d <;> rfl
  height := by cases d <;> rfl
  found e id he := by
    rw [find?_grow, if_neg, he]
    rintro rfl
    exact absurd (hnew.symm.trans he) nofun
  kept id w hw := by
    rw [store_grow, Store.get?_insert, if_neg, hw]
    exact nextId_ne ((s.store.lt_size_iff id).mpr ⟨w, hw⟩)
  fresh id w hs hw := by
    rw [store_grow, Store.get?_insert] at hw
    split at hw
    · exact Option.some.inj hw ▸ hv
    · exact absurd (hs.symm.trans hw) nofun
  caches := by rw [store_grow]; rfl

/-! ## Contents of cells -/

/-- The vertex of an address. -/
def vertexAt (s : Sheet) (a : Address) : Option Vertex := (s.find? (.cell a)).bind s.store.get?

/-- The formula in a cell. -/
def formulaAt (s : Sheet) (a : Address) : Option Expr :=
  match s.vertexAt a with
  | some (.formula x _ _) => some x
  | _ => none

/-- The typed value in a cell, blank where a formula stands. -/
def constantAt (s : Sheet) (a : Address) : Value :=
  match s.vertexAt a with
  | some (.value v) => v
  | _ => .empty

theorem Labelled.find?_eq_none (h : s.Labelled) {a : Address} (ha : s.vertexAt a = none) :
    s.find? (.cell a) = none := by
  cases hfind : s.find? (.cell a) with
  | none => rfl
  | some id =>
      obtain ⟨v, hv, -⟩ := h.fits _ id hfind
      rw [vertexAt, hfind, Option.bind_some, hv] at ha
      cases ha

theorem vertexAt_grow (h : s.Labelled) (a : Address) (v : Vertex) (b : Address) :
    (s.grow (.cell a) v).vertexAt b = if b = a then some v else s.vertexAt b := by
  rw [vertexAt, vertexAt, find?_grow, store_grow]
  by_cases hb : b = a
  · rw [if_pos (congrArg Dependency.cell hb), if_pos hb, Option.bind_some, Store.get?_insert,
      if_pos rfl]
  · rw [if_neg (fun heq => hb (Dependency.cell.inj heq)), if_neg hb]
    cases hfind : s.find? (.cell b) with
    | none => rfl
    | some id =>
        rw [Option.bind_some, Option.bind_some, Store.get?_insert,
          if_neg (nextId_ne (h.lt_size hfind))]

theorem Labelled.vertexAt_of_extends (hs : s.Labelled) (ht : t.Labelled) (h : s.Extends t)
    (a : Address) :
    t.vertexAt a = s.vertexAt a ∨ s.vertexAt a = none ∧ t.vertexAt a = some .blank := by
  rw [vertexAt, vertexAt]
  cases hfind : s.find? (.cell a) with
  | some id =>
      obtain ⟨v, hv, -⟩ := hs.fits _ id hfind
      rw [h.found _ id hfind, Option.bind_some, Option.bind_some, h.kept id v hv, hv]
      exact Or.inl rfl
  | none =>
      cases hfind' : t.find? (.cell a) with
      | none => exact Or.inl rfl
      | some id =>
          obtain ⟨v, hv, hfits⟩ := ht.fits _ id hfind'
          have hnew : s.store.get? id = none := by
            by_contra hold
            obtain ⟨w, hw⟩ := Option.ne_none_iff_exists'.mp hold
            obtain ⟨d, hd⟩ := hs.label id ((s.store.lt_size_iff id).mpr ⟨w, hw⟩)
            obtain rfl := ht.inj _ _ id (h.found d id hd) hfind'
            exact absurd (hfind.symm.trans hd) nofun
          refine Or.inr ⟨rfl, ?_⟩
          rcases h.fresh id v hnew hv with rfl | ⟨r, rfl⟩
          · exact hv
          · exact hfits.elim

theorem Labelled.formulaAt_of_extends (hs : s.Labelled) (ht : t.Labelled) (h : s.Extends t)
    (a : Address) : t.formulaAt a = s.formulaAt a := by
  rw [formulaAt, formulaAt]
  rcases hs.vertexAt_of_extends ht h a with heq | ⟨hnone, hblank⟩
  · rw [heq]
  · rw [hnone, hblank]

theorem Labelled.constantAt_of_extends (hs : s.Labelled) (ht : t.Labelled) (h : s.Extends t)
    (a : Address) : t.constantAt a = s.constantAt a := by
  rw [constantAt, constantAt]
  rcases hs.vertexAt_of_extends ht h a with heq | ⟨hnone, hblank⟩
  · rw [heq]
  · rw [hnone, hblank]

theorem Labelled.get?_range (h : s.Labelled) {r : Range} (hid : s.find? (.range r) = some id) :
    s.store.get? id = some (.range r) := by
  obtain ⟨v, hv, hfits⟩ := h.fits _ id hid
  cases v with
  | range r' => rw [hv, show r' = r from hfits]
  | _ => exact hfits.elim

/-- A formula's vertex stands for the cell that the formula is written in. -/
theorem Labelled.find?_home (h : s.Labelled) {x : Expr} {home : Address} {shown : Value}
    (hid : s.store.get? id = some (.formula x home shown)) : s.find? (.cell home) = some id := by
  obtain ⟨d, hd⟩ := h.label id ((s.store.lt_size_iff id).mpr ⟨_, hid⟩)
  obtain ⟨v, hv, hfits⟩ := h.fits d id hd
  obtain rfl := Option.some.inj (hid.symm.trans hv)
  cases d with
  | cell a => rwa [hfits]
  | range r => exact hfits.elim

theorem Labelled.formulaAt_eq_some_iff (h : s.Labelled) {a : Address} {x : Expr} :
    s.formulaAt a = some x ↔ ∃ id shown, s.store.get? id = some (.formula x a shown) := by
  constructor
  · intro hx
    rw [formulaAt, vertexAt] at hx
    cases hfind : s.find? (.cell a) with
    | none =>
        rw [hfind] at hx
        cases hx
    | some id =>
        obtain ⟨v, hv, hfits⟩ := h.fits _ id hfind
        rw [hfind, Option.bind_some, hv] at hx
        cases v with
        | formula y home shown =>
            obtain rfl := Option.some.inj hx
            obtain rfl : home = a := hfits
            exact ⟨id, shown, hv⟩
        | _ => cases hx
  · rintro ⟨id, shown, hid⟩
    rw [formulaAt, vertexAt, h.find?_home hid, Option.bind_some, hid]

end Sheet

end Recalc
