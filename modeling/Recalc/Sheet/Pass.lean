import Recalc.Sheet

/-!
# Evaluation passes

In a pass the formulas on cycles show the cycle error, and then every other formula is computed and
every range's cache dropped, in the order of the sort. What cannot be on a cycle stops the pass.
-/

namespace Recalc

/-- A sheet with its order of evaluation. -/
structure LoadedSheet where
  sheet : Sheet
  order : Order VertexId

namespace LoadedSheet

/-- Let formulas show the cycle error. -/
def markCycles (s : Sheet) : List VertexId → Except Failure Unit × Sheet
  | [] => (.ok (), s)
  | id :: rest =>
      match s.store.get? id with
      | some (.formula ..) => markCycles (s.setValue id (.error .cycle)) rest
      | some v => (.error (.nonFormulaOnCycle v.kind id), s)
      | none => (.error (.unknownVertex id), s)

/-- Recompute vertices one after the other. -/
def recomputeAll (functions : Registry) (s : Sheet) : List VertexId → Except Failure Unit × Sheet
  | [] => (.ok (), s)
  | id :: rest =>
      match s.recompute functions id with
      | .ok s => recomputeAll functions s rest
      | .error e => (.error e, s)

/-- Run a pass. A pass that stops leaves what it has done so far. -/
def pass (functions : Registry) (l : LoadedSheet) : Except Failure Unit × LoadedSheet :=
  match markCycles l.sheet l.order.cycled with
  | (.error e, sheet) => (.error e, { l with sheet })
  | (.ok (), sheet) =>
      let (outcome, sheet) := recomputeAll functions sheet l.order.sorted
      (outcome, { l with sheet })

/-- Put typed content into a cell that holds no formula. A cell that was neither occupied nor
referred to is appended to the graph, and the order is sorted anew. -/
def edit (l : LoadedSheet) (a : Address) (v : Value) : Except Failure LoadedSheet := do
  let s := l.sheet
  match ← s.cells.get a with
  | some id =>
      match s.store.get? id with
      | some (.value _) | some .blank =>
          return { l with sheet := { s with store := s.store.replace id (.value v) } }
      | some (.formula ..) => throw (.refusedEdit a .formulaCell)
      | some (.range _) => throw (.refusedEdit a .rangeVertex)
      | none => throw (.unknownVertex id)
  | none =>
      if v.isEmpty then return l
      else
        let sheet ← s.addCell a (.value v)
        return { sheet, order := sheet.order }

end LoadedSheet

end Recalc
