import Recalc.Proofs.Engine.Solution
import Recalc.Proofs.Expr.Placement
import Recalc.Proofs.Range.RowOrder

/-!
# Sums of split ranges

A sum takes the cells of its ranges row by row into one running total, and an error ends it. A range
can therefore be cut between two rows into two arguments: the same numbers are added in the same
order, so the total is rounded alike and the first error is the same one.
-/

namespace Recalc

theorem Function.addCells_append (total : Float) (above below : List Value) :
    addCells total (above ++ below) = addCells total above >>= (addCells · below) := by
  induction above generalizing total with
  | nil => rfl
  | cons v above ih =>
      cases v with
      | error => rfl
      | _ => exact ih _

namespace Grid

variable {g : Grid} {r : Range} {k : Nat}

theorem addOperand_of_covers (h : g.Covers (.range r)) (total : Float) (v : Value) :
    g.addOperand total ⟨some (some r), v⟩
      = Function.addCells total (r.addresses.map g.stored) := by
  simp only [addOperand, range_of_covers h]
  rfl

section Split

variable (h : g.Covers (.range r)) (hpos : 0 < k) (hlt : k < r.height)
include h hpos hlt

theorem covers_split : g.Covers (.range (r.topRows k)) ∧ g.Covers (.range (r.rowsFrom k)) := by
  have hall : ∀ a ∈ (r.topRows k).addresses ++ (r.rowsFrom k).addresses, g.inBounds a = true := by
    rw [← r.addresses_eq_append hpos hlt]
    exact h
  exact List.forall_mem_append.mp hall

/-- A range adds to a total what its first rows and then the others add. -/
theorem addOperand_split (total : Float) (v v' v'' : Value) :
    g.addOperand total ⟨some (some r), v⟩
      = g.addOperand total ⟨some (some (r.topRows k)), v'⟩
        >>= (g.addOperand · ⟨some (some (r.rowsFrom k)), v''⟩) := by
  obtain ⟨htop, hbelow⟩ := covers_split h hpos hlt
  calc g.addOperand total ⟨some (some r), v⟩
      = Function.addCells total (r.addresses.map g.stored) := addOperand_of_covers h total v
    _ = Function.addCells total ((r.topRows k).addresses.map g.stored)
        >>= (Function.addCells · ((r.rowsFrom k).addresses.map g.stored)) := by
        rw [r.addresses_eq_append hpos hlt, List.map_append, Function.addCells_append]
    _ = _ := by
        simp only [addOperand_of_covers htop, addOperand_of_covers hbelow]

/-- A sum does not change when one of its ranges is cut between two rows. -/
theorem sum_split (before after : List Operand) (v v' v'' : Value)
    (hcount : before.length + after.length + 2 ≤ 255) :
    g.sum (before ++ ⟨some (some r), v⟩ :: after)
      = g.sum (before ++ ⟨some (some (r.topRows k)), v'⟩
        :: ⟨some (some (r.rowsFrom k)), v''⟩ :: after) := by
  have hwhole : Function.checkArity (before ++ ⟨some (some r), v⟩ :: after).length 1 255
      = .ok () := by
    rw [Function.checkArity_eq_ok_iff, List.length_append, List.length_cons]
    omega
  have hcut : Function.checkArity (before ++ ⟨some (some (r.topRows k)), v'⟩
      :: ⟨some (some (r.rowsFrom k)), v''⟩ :: after).length 1 255 = .ok () := by
    rw [Function.checkArity_eq_ok_iff, List.length_append, List.length_cons, List.length_cons]
    omega
  rw [sum, sum, hwhole, hcut, List.foldlM_append, List.foldlM_append]
  simp only [List.foldlM_cons, addOperand_split h hpos hlt _ v v' v'', bind_assoc]

end Split

end Grid

namespace LoadedSheet.Consistent

variable {l : LoadedSheet} {id : VertexId} {name : String} {arguments : List Expr} {home : Address}
  {shown : Value}

/-- A sum on no cycle shows the sum of its operands. -/
theorem shown_sum (h : l.Consistent)
    (hid : l.sheet.store.get? id = some (.formula (.call name arguments) home shown))
    (hcycled : id ∉ l.order.cycled) (hname : Text.toCapitals name = "SUM") :
    shown = Value.ofExcept (l.sheet.view.grid.sum
      (Expr.operandsOf l.sheet.view.grid home arguments)) := by
  rw [(h.solved id _ home shown hid).2 hcycled, Expr.meaning, hname]
  rfl

theorem sheet_home (h : l.Consistent) {x : Expr}
    (hid : l.sheet.store.get? id = some (.formula x home shown)) :
    home.sheet = l.sheet.cells.sheet :=
  (CellMap.inBounds_iff.mp (h.labelled.covers _ _ (h.labelled.find?_home hid))).1

end LoadedSheet.Consistent

/-- What a list of expressions that are ranges is written as. -/
def Expr.ranges? : List Expr → Option (List RangeReference)
  | [] => some []
  | range r :: more => (ranges? more).map (r :: ·)
  | _ :: _ => none

theorem Expr.eq_of_ranges? {xs : List Expr} {rs : List RangeReference} (h : ranges? xs = some rs) :
    xs = rs.map range := by
  induction xs generalizing rs with
  | nil => rw [← Option.some.inj h, List.map_nil]
  | cons x xs ih =>
      cases x with
      | range r =>
          obtain ⟨more, hmore, rfl⟩ := Option.map_eq_some_iff.mp h
          rw [ih hmore, List.map_cons]
      | _ => cases h

/-- The function and the ranges of a call that has no other arguments. -/
def Expr.rangeCall? : Expr → Option (String × List RangeReference)
  | call name arguments => (ranges? arguments).map (name, ·)
  | _ => none

theorem Expr.eq_of_rangeCall? {x : Expr} {name : String} {rs : List RangeReference}
    (h : x.rangeCall? = some (name, rs)) : x = .call name (rs.map range) := by
  cases x with
  | call name' arguments =>
      obtain ⟨rs', hrs, heq⟩ := Option.map_eq_some_iff.mp h
      obtain ⟨rfl, rfl⟩ := Prod.mk.inj heq
      rw [eq_of_ranges? hrs]
  | _ => cases h

namespace Engine

/-- Whatever an engine without plugins has been asked, two sums on no cycle show the same number or
the same error if they have the same arguments, except that the second has the upper rows of a range
and then its lower rows where the first has the whole of it. -/
theorem run_sum_split (csv : Csv.ReadOptions) (requests : List Request) {l : LoadedSheet}
    (hl : ((ofConfig ⟨[], csv⟩).run requests).sheet = some l)
    {id id' : VertexId} {name name' : String} {before after : List Expr}
    {whole upper lower : RangeReference} {home home' : Address} {shown shown' : Value}
    (hid : l.sheet.store.get? id
      = some (.formula (.call name (before ++ .range whole :: after)) home shown))
    (hid' : l.sheet.store.get? id'
      = some (.formula (.call name' (before.map (Expr.seenFrom home home')
        ++ .range upper :: .range lower :: after.map (Expr.seenFrom home home'))) home' shown'))
    (hcycle : ¬ l.sheet.graph.OnCycle id) (hcycle' : ¬ l.sheet.graph.OnCycle id')
    (hname : Text.toCapitals name = "SUM") (hname' : Text.toCapitals name' = "SUM")
    {r : Range} (hr : whole.resolve? home = some r) (hin : l.sheet.cells.rangeInBounds r = true)
    {k : Nat} (hpos : 0 < k) (hlt : k < r.height)
    (hupper : upper.resolve? home' = some (r.topRows k))
    (hlower : lower.resolve? home' = some (r.rowsFrom k))
    (hcount : before.length + after.length + 2 ≤ 255) : shown = shown' := by
  have h : l.Consistent := ((sound_ofConfig csv).run requests).sheet l hl
  have hcycled : ∀ {id}, ¬ l.sheet.graph.OnCycle id → id ∉ l.order.cycled :=
    fun {id} hid => (h.passable.arranges.mem_cycled_iff id).not.mpr hid
  have hsheet : home'.sheet = home.sheet := (h.sheet_home hid').trans (h.sheet_home hid).symm
  have hcovers : l.sheet.view.grid.Covers (.range r) := (l.sheet.grid_covers_iff (.range r)).mpr hin
  rw [h.shown_sum hid (hcycled hcycle) hname, h.shown_sum hid' (hcycled hcycle') hname']
  refine congrArg Value.ofExcept ?_
  calc l.sheet.view.grid.sum
        (Expr.operandsOf l.sheet.view.grid home (before ++ .range whole :: after))
      = l.sheet.view.grid.sum (Expr.operandsOf l.sheet.view.grid home before
        ++ ⟨some (some r), .error .badValue⟩
        :: Expr.operandsOf l.sheet.view.grid home after) := by
        simp [Expr.literalRange?, Expr.meaning, hr]
    _ = l.sheet.view.grid.sum (Expr.operandsOf l.sheet.view.grid home before
        ++ ⟨some (some (r.topRows k)), .error .badValue⟩
        :: ⟨some (some (r.rowsFrom k)), .error .badValue⟩
        :: Expr.operandsOf l.sheet.view.grid home after) :=
        Grid.sum_split hcovers hpos hlt _ _ _ _ _ (by simpa using hcount)
    _ = l.sheet.view.grid.sum
        (Expr.operandsOf l.sheet.view.grid home' (before.map (Expr.seenFrom home home')
          ++ .range upper :: .range lower :: after.map (Expr.seenFrom home home'))) := by
        rw [← Expr.operandsOf_seenFrom hsheet _ before, ← Expr.operandsOf_seenFrom hsheet _ after]
        simp [Expr.literalRange?, Expr.meaning, hupper, hlower]

/-- The second of three ranges is cut below its first row, by a formula in another cell. -/
theorem run_sum_split_firstRow :
    let requests := [.load [["1", "2", "=SUM(B1:B1,A1:B3,A3:A3)"],
      ["3", "4", "", "=sum(B1:B1,A1:B1,A2:B3,A3:A3)"], ["5", "6"]]]
    let e := (ofConfig ⟨[], Csv.ReadOptions.standard⟩).run requests
    ∃ l id x shown id' x' shown', e.sheet = some l
      ∧ l.sheet.store.get? id = some (.formula x ⟨0, 2, 0⟩ shown)
      ∧ l.sheet.store.get? id' = some (.formula x' ⟨0, 3, 1⟩ shown')
      ∧ shown = shown' ∧ shown.number?.bind Double.integerPart? = some 28 := by
  intro requests e
  let home : Address := ⟨0, 2, 0⟩
  let home' : Address := ⟨0, 3, 1⟩
  let written := fun home a b => RangeReference.mk (.between home a) (.between home b)
  let b1 : Address := ⟨0, 1, 0⟩
  let a3 : Address := ⟨0, 0, 2⟩
  let whole := written home ⟨0, 0, 0⟩ ⟨0, 1, 2⟩
  let upper := written home' ⟨0, 0, 0⟩ ⟨0, 1, 0⟩
  let lower := written home' ⟨0, 0, 1⟩ ⟨0, 1, 2⟩
  have hfacts : (e.sheet.any fun l =>
      l.order.cycled = []
      ∧ (l.sheet.formulaAt home).bind Expr.rangeCall?
        = some ("SUM", [written home b1 b1, whole, written home a3 a3])
      ∧ (l.sheet.formulaAt home').bind Expr.rangeCall?
        = some ("SUM", [written home' b1 b1, upper, lower, written home' a3 a3])
      ∧ l.sheet.cells.rangeInBounds (.ofCorners ⟨0, 0, 0⟩ ⟨0, 1, 2⟩) = true
      ∧ (l.sheet.stored home).number?.bind Double.integerPart? = some 28) = true := by
    decide +kernel
  obtain ⟨l, hl, hfacts⟩ := (Option.any_eq_true _ _).mp hfacts
  obtain ⟨hcycled, hcall, hcall', hin, hvalue⟩ := of_decide_eq_true hfacts
  have hl' := ((sound_ofConfig Csv.ReadOptions.standard).run requests).sheet l hl
  have hnot : ∀ id, ¬ l.sheet.graph.OnCycle id := fun id hid => by
    rw [← hl'.passable.arranges.mem_cycled_iff, hcycled] at hid
    cases hid
  obtain ⟨x, hx, hcall⟩ := Option.bind_eq_some_iff.mp hcall
  obtain ⟨x', hx', hcall'⟩ := Option.bind_eq_some_iff.mp hcall'
  obtain ⟨id, shown, hid⟩ := hl'.labelled.formulaAt_eq_some_iff.mp hx
  obtain ⟨id', shown', hid'⟩ := hl'.labelled.formulaAt_eq_some_iff.mp hx'
  have hid₁ : l.sheet.store.get? id = some (.formula (.call "SUM"
      ([.range (written home b1 b1)] ++ .range whole :: [.range (written home a3 a3)]))
      home shown) := Expr.eq_of_rangeCall? hcall ▸ hid
  have hid₂ : l.sheet.store.get? id' = some (.formula (.call "SUM"
      ([.range (written home b1 b1)].map (Expr.seenFrom home home') ++ .range upper :: .range lower
        :: [.range (written home a3 a3)].map (Expr.seenFrom home home'))) home' shown') :=
    Expr.eq_of_rangeCall? hcall' ▸ hid'
  have hshown := run_sum_split Csv.ReadOptions.standard requests hl hid₁ hid₂ (hnot _) (hnot _)
    (by decide) (by decide) (r := .ofCorners ⟨0, 0, 0⟩ ⟨0, 1, 2⟩) (by decide) hin (k := 1)
    (by decide) (by decide) (by decide) (by decide) (by decide)
  rw [hl'.labelled.stored_of_formula hid] at hvalue
  exact ⟨l, id, x, shown, id', x', shown', hl, hid, hid', hshown, hvalue⟩

end Engine

end Recalc
