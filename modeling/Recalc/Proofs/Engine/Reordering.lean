import Recalc.Proofs.Engine.Solution

/-!
# Ties in the order of evaluation

A pass gives every cell the same value in whatever order it takes the vertices, as long as each
stands behind all that it reads. What the formulas show and what the caches hold when the pass
begins makes no difference to this.
-/

namespace Recalc

/-- A formula that shows another value. Other vertices stay as they are. -/
def Vertex.showing (v : Value) : Vertex → Vertex
  | formula x home _ => formula x home v
  | w => w

namespace Sheet

/-- The sheet with other values in its formulas and with other caches. -/
def refilled (s : Sheet) (shown : VertexId → Value) (caches : Caches) : Sheet :=
  { s with store := ⟨s.store.vertices.mapIdx fun i v => v.showing (shown ⟨i⟩), caches⟩ }

variable {functions : Registry} {s t u : Sheet} {o : Order VertexId}

theorem get?_refilled (s : Sheet) (shown : VertexId → Value) (caches : Caches) (id : VertexId) :
    (s.refilled shown caches).store.get? id
      = (s.store.get? id).map (Vertex.showing (shown id)) := by
  simp only [refilled, Store.get?, Array.getElem?_mapIdx]

theorem reshown_refilled (s : Sheet) (shown : VertexId → Value) (caches : Caches) :
    s.Reshown (s.refilled shown caches) := by
  refine ⟨⟨rfl, rfl, rfl, fun id => ?_⟩, fun a => ?_⟩
  · rw [get?_refilled]
    cases s.store.get? id with
    | none => rfl
    | some v => cases v <;> rfl
  · have hfind : (s.refilled shown caches).find? (.cell a) = s.find? (.cell a) := rfl
    rw [constantAt, constantAt, vertexAt, vertexAt, hfind]
    cases s.find? (.cell a) with
    | none => rfl
    | some id =>
        rw [Option.bind_some, Option.bind_some, get?_refilled]
        cases s.store.get? id with
        | none => rfl
        | some v => cases v <;> rfl

theorem Reshown.sameContents (h : s.Reshown t) (hs : s.Labelled) : s.SameContents t where
  sheet := by rw [h.cells]
  width := by rw [h.cells]
  height := by rw [h.cells]
  formulaAt := h.toSameOutline.formulaAt hs
  constantAt := h.constantAt

theorem SameContents.symm (h : s.SameContents t) : t.SameContents s where
  sheet := h.sheet.symm
  width := h.width.symm
  height := h.height.symm
  formulaAt a := (h.formulaAt a).symm
  constantAt a := (h.constantAt a).symm

theorem SameContents.trans (h : s.SameContents t) (h' : t.SameContents u) : s.SameContents u where
  sheet := h'.sheet.trans h.sheet
  width := h'.width.trans h.width
  height := h'.height.trans h.height
  formulaAt a := (h'.formulaAt a).trans (h.formulaAt a)
  constantAt a := (h'.constantAt a).trans (h.constantAt a)

theorem Passable.reorder (h : s.Passable functions o) {sorted : List VertexId}
    (hperm : sorted.Perm o.sorted)
    (hbefore : ∀ u v, s.graph.Edge u v → u ∈ sorted → v ∈ sorted → [u, v].Sublist sorted) :
    s.Passable functions ⟨sorted, o.cycled⟩ :=
  ⟨h.wired, h.arranges.reorder hperm hbefore, h.formulas⟩

end Sheet

namespace LoadedSheet

variable {l : LoadedSheet} {s : Sheet}

/-- From whatever the formulas show and the caches hold, passes in two orders of evaluation store
the same values. -/
theorem Ready.exists_pass_reordered (h : l.Ready Registry.builtin) (hs : l.sheet.Reshown s)
    {sorted : List VertexId} (hperm : sorted.Perm l.order.sorted)
    (hbefore : ∀ u v, l.sheet.graph.Edge u v → u ∈ sorted → v ∈ sorted → [u, v].Sublist sorted) :
    let o : Order VertexId := ⟨sorted, l.order.cycled⟩
    ∃ t t', pass Registry.builtin ⟨s, l.order⟩ = (.ok (), ⟨t, l.order⟩)
      ∧ pass Registry.builtin ⟨s, o⟩ = (.ok (), ⟨t', o⟩)
      ∧ ∀ a, t'.valueAt a = t.valueAt a := by
  have hpassable := hs.toSameOutline.passable h.passable
  have hreordered := hs.toSameOutline.passable (h.passable.reorder hperm hbefore)
  obtain ⟨t, ht, hshown, hsolved, hcoherent⟩ := hpassable.exists_pass
  obtain ⟨t', ht', hshown', hsolved', hcoherent'⟩ := hreordered.exists_pass
  -- What is solved does not depend on the places of the vertices off the cycles.
  have hconsistent : (⟨t, l.order⟩ : LoadedSheet).Consistent :=
    ⟨h.reshown (hs.trans hshown), hsolved, hcoherent⟩
  have hconsistent' : (⟨t', l.order⟩ : LoadedSheet).Consistent :=
    ⟨h.reshown (hs.trans hshown'), hsolved', hcoherent'⟩
  have hlabelled := hpassable.wired.labelled
  have hsame : t.SameContents t' :=
    (hshown.sameContents hlabelled).symm.trans (hshown'.sameContents hlabelled)
  refine ⟨t, t', ht, ht', fun a => ?_⟩
  exact hsame.toSameFormulas.valueAt_eq hconsistent.labelled hconsistent'.labelled
    (hconsistent.stored_eq hconsistent' hsame a)

end LoadedSheet

namespace Engine

/-- Whatever an engine without plugins has been asked, whatever its formulas show and its caches
hold: a pass in any order of evaluation stores the values that the pass in the order of the sort
stores. -/
theorem run_pass_reordered (csv : Csv.ReadOptions) (requests : List Request) {l : LoadedSheet}
    (hl : ((ofConfig ⟨[], csv⟩).run requests).sheet = some l)
    (shown : VertexId → Value) (caches : Caches) {sorted : List VertexId}
    (hperm : sorted.Perm l.order.sorted)
    (hbefore : ∀ u v, l.sheet.graph.hasEdge u v = true → u ∈ sorted → v ∈ sorted →
      [u, v].Sublist sorted) :
    let s := l.sheet.refilled shown caches
    let o : Order VertexId := ⟨sorted, l.order.cycled⟩
    l.order = l.sheet.graph.sort
      ∧ ∃ t t', LoadedSheet.pass Registry.builtin ⟨s, l.order⟩ = (.ok (), ⟨t, l.order⟩)
        ∧ LoadedSheet.pass Registry.builtin ⟨s, o⟩ = (.ok (), ⟨t', o⟩)
        ∧ ∀ a, t'.valueAt a = t.valueAt a := by
  have hready : l.Ready Registry.builtin :=
    (((sound_ofConfig csv).run requests).sheet l hl).toReady
  exact ⟨hready.order,
    hready.exists_pass_reordered (l.sheet.reshown_refilled shown caches) hperm hbefore⟩

/-- A formula that refers to itself, a formula behind it, and a range whose cache is wrong when the
pass begins. -/
theorem run_pass_reordered_range :
    let requests := [.load [["p", "=A1&A1", "=A1"], ["=A2&C1", "=VLOOKUP(A1,A1:B1,2)", "=A2"]]]
    let e := (ofConfig ⟨[], Csv.ReadOptions.standard⟩).run requests
    let sorted : List VertexId := [⟨5⟩, ⟨0⟩, ⟨2⟩, ⟨1⟩, ⟨6⟩, ⟨4⟩]
    let caches := Caches.empty.set ⟨6⟩ ⟨some [.text "y", .text "y"], none⟩
    ∃ l, e.sheet = some l
      ∧ l.order.sorted = [⟨0⟩, ⟨1⟩, ⟨2⟩, ⟨6⟩, ⟨4⟩, ⟨5⟩] ∧ sorted.Perm l.order.sorted
      ∧ l.order = l.sheet.graph.sort
      ∧ let s := l.sheet.refilled (fun _ => .text "z") caches
        let o : Order VertexId := ⟨sorted, l.order.cycled⟩
        ∃ t t', LoadedSheet.pass Registry.builtin ⟨s, l.order⟩ = (.ok (), ⟨t, l.order⟩)
          ∧ LoadedSheet.pass Registry.builtin ⟨s, o⟩ = (.ok (), ⟨t', o⟩)
          ∧ ∀ a, t'.valueAt a = t.valueAt a := by
  intro requests e sorted caches
  have hloaded : (e.sheet.any fun l =>
      l.order.sorted = [⟨0⟩, ⟨1⟩, ⟨2⟩, ⟨6⟩, ⟨4⟩, ⟨5⟩] ∧ sorted.Perm l.order.sorted
      ∧ ∀ u ∈ sorted, ∀ v ∈ sorted, l.sheet.graph.hasEdge u v = true →
        [u, v].Sublist sorted) = true := by decide +kernel
  obtain ⟨l, hl, hfacts⟩ := (Option.any_eq_true _ _).mp hloaded
  obtain ⟨hsorted, hperm, hedges⟩ := of_decide_eq_true hfacts
  obtain ⟨horder, hpasses⟩ := run_pass_reordered Csv.ReadOptions.standard requests hl
    (fun _ => .text "z") caches hperm fun u v hedge hu hv => hedges u hu v hv hedge
  exact ⟨l, hl, hsorted, hperm, horder, hpasses⟩

end Engine

end Recalc
