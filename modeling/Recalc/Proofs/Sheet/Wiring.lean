import Recalc.Proofs.Outcome
import Recalc.Proofs.Rectangle
import Recalc.Proofs.Sheet.Labels

/-!
# Wiring formulas

A formula's cell reads each cell and range that the formula names on the sheet, and a named range
reads each of its cells. Wiring never fails, and it adds exactly the arrows from what is read to
what reads it.
-/

namespace Recalc

/-- What is read on account of a formula at `a` that names `d`: its cell reads `d`, and `d` reads
its cells if it is a range. -/
inductive Dependency.Brings (a : Address) (d : Dependency) : Dependency → Dependency → Prop where
  | formula : Brings a d (.cell a) d
  | cells {r : Range} {b : Address} (range : d = .range r) (mem : b ∈ r.addresses) :
      Brings a d (.range r) (.cell b)

theorem Dependency.brings_iff {a : Address} {d e f : Dependency} :
    Dependency.Brings a d e f ↔ e = .cell a ∧ f = d ∨
      ∃ r, d = .range r ∧ ∃ b ∈ r.addresses, e = .range r ∧ f = .cell b := by
  constructor
  · rintro (_ | ⟨hr, hb⟩)
    · exact Or.inl ⟨rfl, rfl⟩
    · exact Or.inr ⟨_, hr, _, hb, rfl, rfl⟩
  · rintro (⟨rfl, rfl⟩ | ⟨r, hr, b, hb, rfl, rfl⟩)
    · exact .formula
    · exact .cells hr hb

namespace Sheet

/-- The arrows of a sheet lead from what is read to what reads it. -/
structure Linked (s : Sheet) (reads : Dependency → Dependency → Prop) : Prop where
  labelled : s.Labelled
  reader : ∀ e d, reads e d → ∃ v, s.find? e = some v
  source : ∀ e d, reads e d → ∃ u, s.find? d = some u
  edge_iff : ∀ u v, s.graph.Edge u v ↔
    ∃ e d, reads e d ∧ s.find? e = some v ∧ s.find? d = some u

/-- Moreover, each range that has a vertex reads all its cells. -/
structure Wired (s : Sheet) (reads : Dependency → Dependency → Prop) : Prop extends
    s.Linked reads where
  fed : ∀ r id, s.find? (.range r) = some id → ∀ b ∈ r.addresses, reads (.range r) (.cell b)

variable {s t : Sheet} {reads more : Dependency → Dependency → Prop} {d e : Dependency}
  {u v : VertexId} {a : Address} {r : Range}

theorem Linked.congr (h : s.Linked reads) (heq : ∀ e d, reads e d ↔ more e d) : s.Linked more := by
  have : reads = more := funext fun e => funext fun d => propext (heq e d)
  exact this ▸ h

theorem Wired.congr (h : s.Wired reads) (heq : ∀ e d, reads e d ↔ more e d) : s.Wired more := by
  have : reads = more := funext fun e => funext fun d => propext (heq e d)
  exact this ▸ h

/-- What a vertex reads has a vertex with an arrow to it. -/
theorem Linked.exists_edge (h : s.Linked reads) (hread : reads e d) (he : s.find? e = some v) :
    ∃ u, s.find? d = some u ∧ s.graph.Edge u v := by
  obtain ⟨u, hu⟩ := h.source e d hread
  exact ⟨u, hu, (h.edge_iff u v).mpr ⟨e, d, hread, he, hu⟩⟩

theorem Linked.grow (h : s.Linked reads) (hd : s.Covers d) {w : Vertex} (hw : d.Fits w)
    (hnew : s.find? d = none) : (s.grow d w).Linked reads := by
  have hne : ∀ {f id}, s.find? f = some id → f ≠ d := by
    rintro f id hf rfl
    exact absurd (hnew.symm.trans hf) nofun
  have hkeep : ∀ {f id}, s.find? f = some id → (s.grow d w).find? f = some id := by
    intro f id hf
    rw [find?_grow, if_neg (hne hf), hf]
  refine ⟨h.labelled.grow hd hw hnew, fun e f hef => ?_, fun e f hef => ?_, fun u v => ?_⟩
  · obtain ⟨v, hv⟩ := h.reader e f hef
    exact ⟨v, hkeep hv⟩
  · obtain ⟨u, hu⟩ := h.source e f hef
    exact ⟨u, hkeep hu⟩
  · rw [graph_grow, h.labelled.graph.edge_addNode, h.edge_iff]
    refine exists_congr fun e => exists_congr fun f => and_congr_right fun hef => ?_
    obtain ⟨v', hv'⟩ := h.reader e f hef
    obtain ⟨u', hu'⟩ := h.source e f hef
    rw [hv', hu', hkeep hv', hkeep hu']

/-- The graph makes no difference to which vertices there are. -/
theorem find?_withGraph (s : Sheet) (g : Graph VertexId) (d : Dependency) :
    ({ s with graph := g } : Sheet).find? d = s.find? d := by
  cases d <;> rfl

theorem Labelled.withGraph {g : Graph VertexId} (h : s.Labelled) (wf : g.WellFormed)
    (hcontains : ∀ id, g.contains id = s.graph.contains id) :
    ({ s with graph := g } : Sheet).Labelled where
  graph := wf
  contains_iff id := by rw [hcontains id, h.contains_iff id]
  covers f id hf := by
    have := h.covers f id (find?_withGraph s g f ▸ hf)
    cases f <;> exact this
  fits f id hf := h.fits f id (find?_withGraph s g f ▸ hf)
  inj e f id he hf := h.inj e f id (find?_withGraph s g e ▸ he) (find?_withGraph s g f ▸ hf)
  label id hid := by
    obtain ⟨f, hf⟩ := h.label id hid
    exact ⟨f, (find?_withGraph s g f).trans hf⟩

/-- A sheet with one arrow more is linked by what it links and by that arrow. -/
theorem Linked.withArrow {g : Graph VertexId} (h : s.Linked reads)
    (hlabelled : ({ s with graph := g } : Sheet).Labelled)
    (hedge : ∀ u' v', g.Edge u' v' ↔ s.graph.Edge u' v' ∨ u' = u ∧ v' = v)
    (he : s.find? e = some v) (hd : s.find? d = some u) :
    ({ s with graph := g } : Sheet).Linked fun e' d' => reads e' d' ∨ e' = e ∧ d' = d where
  labelled := hlabelled
  reader := by
    rintro e' d' (hread | ⟨rfl, rfl⟩)
    · exact h.reader e' d' hread
    · exact ⟨v, he⟩
  source := by
    rintro e' d' (hread | ⟨rfl, rfl⟩)
    · exact h.source e' d' hread
    · exact ⟨u, hd⟩
  edge_iff u' v' := by
    rw [hedge, h.edge_iff]
    constructor
    · rintro (⟨e', d', hread, hv, hu⟩ | ⟨rfl, rfl⟩)
      · exact ⟨e', d', Or.inl hread, hv, hu⟩
      · exact ⟨e, d, Or.inr ⟨rfl, rfl⟩, he, hd⟩
    · rintro ⟨e', d', hread | ⟨rfl, rfl⟩, hv, hu⟩
      · exact Or.inl ⟨e', d', hread, hv, hu⟩
      · exact Or.inr ⟨Option.some.inj (hu.symm.trans hd), Option.some.inj (hv.symm.trans he)⟩

/-- An arrow between two vertices can be added. -/
theorem Linked.connect (h : s.Linked reads) (he : s.find? e = some v) (hd : s.find? d = some u) :
    ∃ t, s.connect u v = .ok t ∧ t.Linked (fun e' d' => reads e' d' ∨ e' = e ∧ d' = d)
      ∧ s.Extends t ∧ t.ranges = s.ranges ∧ t.cells = s.cells := by
  obtain ⟨g, hg, wf, -, hnumbers, hedge⟩ :=
    h.labelled.graph.addEdge (h.labelled.contains hd) (h.labelled.contains he)
  have hcontains : ∀ id, g.contains id = s.graph.contains id := by
    intro id
    rw [Graph.contains, Graph.contains, Graph.number?, Graph.number?, hnumbers]
  have hlabelled := h.labelled.withGraph wf hcontains
  exact ⟨{ s with graph := g }, by rw [Sheet.connect, hg], h.withArrow hlabelled hedge he hd,
    ⟨rfl, rfl, rfl, fun f id hf => (find?_withGraph s g f).trans hf, fun _ _ h => h,
      fun _ _ h h' => (Option.some_ne_none _ (h'.symm.trans h)).elim, rfl⟩, rfl, rfl⟩

/-- The vertex of a cell on the sheet is there or can be added. -/
theorem Linked.cellVertex (h : s.Linked reads) (ha : s.cells.inBounds a = true) :
    ∃ id t, s.cellVertex a = .ok (id, t) ∧ t.Linked reads ∧ s.Extends t
      ∧ t.ranges = s.ranges ∧ t.find? (.cell a) = some id := by
  rw [Sheet.cellVertex, CellMap.get, if_pos ha]
  cases hfind : s.cells.vertices[a]? with
  | some id => exact ⟨id, s, rfl, h, Extends.refl s, rfl, hfind⟩
  | none =>
      refine ⟨s.store.nextId, s.grow (.cell a) .blank, ?_, h.grow (d := .cell a) ha trivial hfind,
        extends_grow (d := .cell a) hfind (Or.inl rfl), rfl, by rw [find?_grow, if_pos rfl]⟩
      simp only [bind, Except.bind, addCell_eq_grow ha]
      rfl

/-! ## Ranges -/

/-- A range can be fed from any cell on the sheet. -/
theorem Linked.feed (h : s.Linked reads) (hr : s.find? (.range r) = some v)
    (ha : s.cells.inBounds a = true) :
    ∃ t, s.feed v a = .ok t
      ∧ t.Linked (fun e d => reads e d ∨ e = .range r ∧ d = .cell a)
      ∧ s.Extends t ∧ t.ranges = s.ranges := by
  obtain ⟨id, s', hs', h', hext, hranges, hid⟩ := h.cellVertex ha
  obtain ⟨t, ht, hlinked, hext', hranges', -⟩ := h'.connect (hext.found _ _ hr) hid
  refine ⟨t, ?_, hlinked, hext.trans hext', hranges'.trans hranges⟩
  rw [Sheet.feed, hs']
  exact ht

theorem Linked.feedAll (h : s.Linked reads) (hr : s.find? (.range r) = some v)
    (cells : List Address) (hcells : ∀ b ∈ cells, s.cells.inBounds b = true) :
    ∃ t, cells.foldlM (Sheet.feed v) s = .ok t
      ∧ t.Linked (fun e d => reads e d ∨ ∃ b ∈ cells, e = .range r ∧ d = .cell b)
      ∧ s.Extends t ∧ t.ranges = s.ranges := by
  refine exists_foldlM (p := fun done t =>
    t.Linked (fun e d => reads e d ∨ ∃ b ∈ done, e = .range r ∧ d = .cell b)
      ∧ s.Extends t ∧ t.ranges = s.ranges) cells ?_
    ⟨h.congr fun e d => by simp, Extends.refl s, rfl⟩
  rintro done b rest s' hcut ⟨hlinked, hext, hranges⟩
  have hb : b ∈ cells := hcut ▸ List.mem_append_right _ List.mem_cons_self
  have hin : s'.cells.inBounds b = true := (hext.covers_iff (.cell b)).mpr (hcells b hb)
  obtain ⟨t, ht, hlinked', hext', hranges'⟩ := hlinked.feed (hext.found _ _ hr) hin
  refine ⟨t, ht, hlinked'.congr fun e d => ?_, hext.trans hext', hranges'.trans hranges⟩
  simp only [List.mem_append, List.mem_singleton, or_and_right, exists_or, exists_eq_left, or_assoc]

/-- The vertex of a range on the sheet is there or can be added, and it reads all its cells. -/
theorem Wired.rangeVertex (h : s.Wired reads) (hr : s.cells.rangeInBounds r = true) :
    ∃ id t, s.rangeVertex r = .ok (id, t)
      ∧ t.Wired (fun e d => reads e d ∨ ∃ b ∈ r.addresses, e = .range r ∧ d = .cell b)
      ∧ s.Extends t ∧ t.find? (.range r) = some id := by
  rw [Sheet.rangeVertex]
  cases hfind : s.ranges.get? r with
  | some id =>
      refine ⟨id, s, rfl, h.congr fun e d => ?_, Extends.refl s, hfind⟩
      refine ⟨Or.inl, ?_⟩
      rintro (hread | ⟨b, hb, rfl, rfl⟩)
      · exact hread
      · exact h.fed r id hfind b hb
  | none =>
      have hgrow : (s.grow (.range r) (.range r)).Linked reads :=
        h.toLinked.grow (d := .range r) hr rfl hfind
      have hnew : (s.grow (.range r) (.range r)).find? (.range r) = some s.store.nextId := by
        rw [find?_grow, if_pos rfl]
      obtain ⟨t, ht, hlinked, hext, hranges⟩ := hgrow.feedAll hnew r.addresses
        ((s.cells.rangeInBounds_iff r).mp hr)
      have hext' := (extends_grow (d := .range r) hfind (Or.inr ⟨r, rfl⟩)).trans hext
      refine ⟨s.store.nextId, t, ?_, ⟨hlinked, fun r' id hid b hb => ?_⟩, hext',
        hext.found _ _ hnew⟩
      · have hfold : r.addresses.foldlM (Sheet.feed s.store.nextId)
            { s.addVertex (.range r) with ranges := s.ranges.set r s.store.nextId } = .ok t := ht
        simp only [hfold]
        rfl
      · rw [find?, hranges] at hid
        have hid' := find?_grow s (.range r) (.range r') (.range r)
        rw [find?, hid] at hid'
        split at hid'
        · next heq =>
            obtain rfl := Dependency.range.inj heq
            exact Or.inr ⟨b, hb, rfl, rfl⟩
        · exact Or.inl (h.fed r' id hid'.symm b hb)

/-! ## Formulas -/

/-- Where the ranges are the same as before, those that have a vertex still read all their cells. -/
theorem Linked.wired (h : t.Linked more) (hs : s.Wired reads) (hranges : t.ranges = s.ranges)
    (hmore : ∀ e d, reads e d → more e d) : t.Wired more := by
  refine ⟨h, fun r id hid b hb => hmore _ _ (hs.fed r id ?_ b hb)⟩
  rwa [find?, ← hranges]

/-- A dependency on the sheet leads to its vertex. -/
theorem Wired.precedent? (h : s.Wired reads) (hd : s.Covers d) :
    ∃ id t, s.precedent? d = .ok (some id, t)
      ∧ t.Wired (fun e f => reads e f ∨
        ∃ r, d = .range r ∧ ∃ b ∈ r.addresses, e = .range r ∧ f = .cell b)
      ∧ s.Extends t ∧ t.find? d = some id := by
  cases d with
  | cell a =>
      obtain ⟨id, t, ht, hlinked, hext, hranges, hid⟩ := h.toLinked.cellVertex hd
      refine ⟨id, t, ?_, (hlinked.wired h hranges fun _ _ h => h).congr fun e f => ?_, hext, hid⟩
      · have hin : s.cells.inBounds a = true := hd
        simp only [Sheet.precedent?, hin, if_true, ht]
        rfl
      · simp
  | range r =>
      obtain ⟨id, t, ht, hwired, hext, hid⟩ := h.rangeVertex hd
      refine ⟨id, t, ?_, hwired.congr fun e f => ?_, hext, hid⟩
      · have hin : s.cells.rangeInBounds r = true := hd
        simp only [Sheet.precedent?, hin, if_true, ht]
        rfl
      · simp

/-- One dependency of a formula can be wired: nothing happens if it leaves the sheet. -/
theorem Wired.wire (h : s.Wired reads) (ha : s.find? (.cell a) = some v) (d : Dependency) :
    ∃ t, s.wire v d = .ok t
      ∧ t.Wired (fun e f => reads e f ∨ s.Covers d ∧ Dependency.Brings a d e f)
      ∧ s.Extends t := by
  by_cases hd : s.Covers d
  · obtain ⟨id, s', hs', hwired, hext, hid⟩ := h.precedent? hd
    obtain ⟨t, ht, hlinked, hext', hranges, -⟩ :=
      hwired.toLinked.connect (hext.found _ _ ha) hid
    refine ⟨t, ?_, ?_, hext.trans hext'⟩
    · rw [Sheet.wire, hs']
      exact ht
    · refine (hlinked.wired hwired hranges fun e f hef => Or.inl hef).congr fun e f => ?_
      rw [Dependency.brings_iff, and_iff_right hd, or_assoc, or_comm (b := e = _ ∧ _)]
  · have hnone : s.precedent? d = .ok (none, s) := by
      cases d with
      | cell b => exact if_neg hd
      | range r => exact if_neg hd
    refine ⟨s, ?_, h.congr fun e f => ?_, Extends.refl s⟩
    · rw [Sheet.wire, hnone]
      rfl
    · simp [hd]

/-- What is read on account of a vertex. -/
def Brings (functions : Registry) (s : Sheet) (w : Vertex) (e f : Dependency) : Prop :=
  match w with
  | .formula x home _ =>
      ∃ d ∈ x.dependencies functions.shapeOnly home, s.Covers d ∧ Dependency.Brings home d e f
  | _ => False

theorem Extends.brings_iff (h : s.Extends t) (functions : Registry) (w : Vertex)
    (e f : Dependency) : t.Brings functions w e f ↔ s.Brings functions w e f := by
  cases w with
  | formula x home _ => simp only [Brings, h.covers_iff]
  | _ => exact Iff.rfl

/-- A formula can be wired. -/
theorem Wired.wireFormula (h : s.Wired reads) (functions : Registry) {id : VertexId} {w : Vertex}
    (hw : s.store.get? id = some w) :
    ∃ t, s.wireFormula functions (id, w) = .ok t
      ∧ t.Wired (fun e f => reads e f ∨ s.Brings functions w e f) ∧ s.Extends t := by
  cases w with
  | formula x home shown =>
      have hhome := h.labelled.find?_home hw
      refine exists_foldlM (p := fun done t =>
        t.Wired (fun e f => reads e f ∨ ∃ d ∈ done, s.Covers d ∧ Dependency.Brings home d e f)
          ∧ s.Extends t) _ ?_ ⟨h.congr fun e f => by simp, Extends.refl s⟩
      rintro done d rest s' - ⟨hwired, hext⟩
      obtain ⟨t, ht, hwired', hext'⟩ := hwired.wire (hext.found _ _ hhome) d
      refine ⟨t, ht, hwired'.congr fun e f => ?_, hext.trans hext'⟩
      simp only [hext.covers_iff, List.mem_append, List.mem_singleton, or_and_right, exists_or,
        exists_eq_left, or_assoc]
  | value _ => exact ⟨s, rfl, h.congr fun e f => by simp [Brings], Extends.refl s⟩
  | range _ => exact ⟨s, rfl, h.congr fun e f => by simp [Brings], Extends.refl s⟩
  | blank => exact ⟨s, rfl, h.congr fun e f => by simp [Brings], Extends.refl s⟩

/-- What is read on account of the formulas of a sheet. -/
def Reads (functions : Registry) (s : Sheet) (e f : Dependency) : Prop :=
  ∃ a x, s.formulaAt a = some x ∧ ∃ d ∈ x.dependencies functions.shapeOnly a,
    s.Covers d ∧ Dependency.Brings a d e f

theorem Labelled.reads_iff (h : s.Labelled) (functions : Registry) (e f : Dependency) :
    s.Reads functions e f ↔ ∃ entry ∈ s.store.toList, s.Brings functions entry.2 e f := by
  constructor
  · rintro ⟨a, x, hx, hread⟩
    obtain ⟨id, shown, hid⟩ := h.formulaAt_eq_some_iff.mp hx
    exact ⟨(id, .formula x a shown), (s.store.mem_toList_iff _ _).mpr hid, hread⟩
  · rintro ⟨⟨id, w⟩, hmem, hread⟩
    have hid := (s.store.mem_toList_iff _ _).mp hmem
    cases w with
    | formula x home shown =>
        exact ⟨home, x, h.formulaAt_eq_some_iff.mpr ⟨id, shown, hid⟩, hread⟩
    | _ => exact hread.elim

theorem Labelled.reads_of_extends (hs : s.Labelled) (ht : t.Labelled) (h : s.Extends t)
    (functions : Registry) (e f : Dependency) :
    t.Reads functions e f ↔ s.Reads functions e f := by
  simp only [Reads, hs.formulaAt_of_extends ht h, h.covers_iff]

/-- The formulas of a sheet that has no arrows yet can be wired. -/
theorem Wired.wireAll (h : s.Wired fun _ _ => False) (functions : Registry) :
    ∃ t, s.store.toList.foldlM (Sheet.wireFormula functions) s = .ok t
      ∧ t.Wired (t.Reads functions) ∧ s.Extends t := by
  obtain ⟨t, ht, hwired, hext⟩ := exists_foldlM
    (f := Sheet.wireFormula functions) (p := fun done t =>
      t.Wired (fun e f => ∃ entry ∈ done, s.Brings functions entry.2 e f) ∧ s.Extends t)
    s.store.toList (fun done entry rest s' hcut hdone => by
      obtain ⟨hwired, hext⟩ := hdone
      have hentry : entry ∈ s.store.toList :=
        hcut ▸ List.mem_append_right _ List.mem_cons_self
      have hw := hext.kept _ _ ((s.store.mem_toList_iff _ _).mp hentry)
      obtain ⟨t, ht, hwired', hext'⟩ := hwired.wireFormula functions hw
      refine ⟨t, ht, hwired'.congr fun e f => ?_, hext.trans hext'⟩
      simp only [hext.brings_iff, List.mem_append, List.mem_singleton, or_and_right, exists_or,
        exists_eq_left]) ⟨h.congr fun e f => by simp, Extends.refl s⟩
  refine ⟨t, ht, hwired.congr fun e f => ?_, hext⟩
  rw [h.labelled.reads_of_extends hwired.labelled hext, h.labelled.reads_iff]

end Sheet

end Recalc
