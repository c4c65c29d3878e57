import Recalc.Evaluation
import Recalc.Expr.Dependency
import Recalc.Expr.Parser
import Recalc.Graph.Sort

/-!
# Sheets as dependency graphs

A sheet is built from typed content in two steps. First every cell that is not blank gets a vertex,
row by row. Then the formulas are wired in that order: a reference to a cell becomes an arrow from
that cell, an argument that is a range an arrow from a vertex shared by all uses of the range, which
is fed by each cell that it covers. What is referred to and blank gets a vertex too; references that
leave the sheet get none.
-/

namespace Recalc

structure Sheet where
  store : Store
  graph : Graph VertexId
  cells : CellMap
  ranges : RangeMap

namespace Sheet

/-- A sheet of the given size without vertices. -/
def blank (sheet width height : Nat) : Sheet :=
  ⟨Store.empty, Graph.empty, CellMap.empty sheet width height, RangeMap.empty⟩

/-- What an evaluation sees of a sheet. -/
def view (s : Sheet) : View := ⟨s.store.vertices, s.cells, s.ranges⟩

/-- The width of the longest row, and the number of rows. -/
def dimensions (rows : List (List String)) : Nat × Nat :=
  ((rows.map List.length).foldl max 0, rows.length)

/-- The typed contents of a sheet with their addresses, row by row. -/
def contents (sheet : Nat) (rows : List (List String)) : List (Address × String) :=
  rows.zipIdx.flatMap fun (row, y) => row.zipIdx.map fun (raw, x) => (⟨sheet, x, y⟩, raw)

/-- The vertex for typed content, if it is not blank. A formula that cannot be read is an error
literal. -/
def vertexOf? (home : Address) (raw : String) : Option Vertex :=
  if Expr.isFormula raw then
    let x := match Expr.ofFormula home raw with
      | .ok x => x
      | .error _ => .error .unreadable
    some (.formula x home .empty)
  else match Value.ofContent raw with
    | .empty => none
    | v => some (.value v)

/-- Add a vertex under the next number. -/
def addVertex (s : Sheet) (v : Vertex) : Sheet :=
  { s with store := s.store.insert v, graph := s.graph.addNode s.store.nextId }

/-- Add the vertex of a cell. -/
def addCell (s : Sheet) (a : Address) (v : Vertex) : Except Failure Sheet := do
  let cells ← s.cells.set a s.store.nextId
  return { s.addVertex v with cells }

/-- Enter typed content. -/
def enter (s : Sheet) (a : Address) (raw : String) : Except Failure Sheet :=
  match vertexOf? a raw with
  | some v => s.addCell a v
  | none => .ok s

/-- Add an arrow between two vertices. -/
def connect (s : Sheet) (source target : VertexId) : Except Failure Sheet :=
  match s.graph.addEdge source target with
  | .ok graph => .ok { s with graph }
  | .error e => .error (.unknownVertex e.node)

/-- The vertex of an address in bounds, which is added if there is none. -/
def cellVertex (s : Sheet) (a : Address) : Except Failure (VertexId × Sheet) := do
  match ← s.cells.get a with
  | some id => return (id, s)
  | none => return (s.store.nextId, ← s.addCell a .blank)

/-- Feed a range from the cell at an address. -/
def feed (target : VertexId) (s : Sheet) (a : Address) : Except Failure Sheet := do
  let (cell, s) ← s.cellVertex a
  s.connect cell target

/-- The vertex of a range in bounds, which is added and fed if there is none. -/
def rangeVertex (s : Sheet) (r : Range) : Except Failure (VertexId × Sheet) := do
  match s.ranges.get? r with
  | some id => return (id, s)
  | none =>
      let id := s.store.nextId
      let s := { s.addVertex (.range r) with ranges := s.ranges.set r id }
      return (id, ← r.addresses.foldlM (feed id) s)

/-- The vertex that a dependency leads to, if it stays on the sheet. -/
def precedent? (s : Sheet) : Dependency → Except Failure (Option VertexId × Sheet)
  | .cell a =>
      if s.cells.inBounds a then do
        let (id, s) ← s.cellVertex a
        return (some id, s)
      else return (none, s)
  | .range r =>
      if s.cells.rangeInBounds r then do
        let (id, s) ← s.rangeVertex r
        return (some id, s)
      else return (none, s)

/-- Add the arrow of one dependency of a formula. -/
def wire (target : VertexId) (s : Sheet) (dependency : Dependency) : Except Failure Sheet := do
  match ← s.precedent? dependency with
  | (some id, s) => s.connect id target
  | (none, s) => return s

/-- Add the arrows of a formula. -/
def wireFormula (functions : Registry) (s : Sheet) (entry : VertexId × Vertex) :
    Except Failure Sheet :=
  match entry.2 with
  | .formula x home _ =>
      (x.dependencies functions.shapeOnly home).foldlM (wire entry.1) s
  | _ => .ok s

/-- The vertices of a sheet's typed contents. -/
def ofContents (sheet : Nat) (rows : List (List String)) : Except Failure Sheet :=
  let (width, height) := dimensions rows
  (contents sheet rows).foldlM (fun s (a, raw) => s.enter a raw) (blank sheet width height)

/-- Build a sheet from rows of typed content. -/
def ofRows (functions : Registry) (sheet : Nat) (rows : List (List String)) :
    Except Failure Sheet := do
  let s ← ofContents sheet rows
  s.store.toList.foldlM (wireFormula functions) s

/-- The order in which a sheet's vertices are evaluated. -/
def order (s : Sheet) : Order VertexId := s.graph.sort

/-- Let a formula show a value. -/
def setValue (s : Sheet) (id : VertexId) (v : Value) : Sheet :=
  { s with store := s.store.setValue id v }

/-- Run a computation that sees the sheet, and keep the caches that it fills. -/
def evaluate {α : Type} (s : Sheet) (computation : Eval α) : α × Sheet :=
  let (x, caches) := computation s.view s.store.caches
  (x, { s with store := { s.store with caches } })

/-- Let a formula show its value, and forget what has been computed for a range. -/
def recompute (functions : Registry) (s : Sheet) (id : VertexId) : Except Failure Sheet :=
  match s.store.get? id with
  | some (.formula x home _) =>
      let (v, s) := s.evaluate (x.evaluate functions home)
      .ok (s.setValue id v)
  | some (.range _) => .ok { s with store := s.store.clearCache id }
  | some (.value _) | some .blank => .ok s
  | none => .error (.unknownVertex id)

/-- The value at an address in bounds. -/
def valueAt (s : Sheet) (a : Address) : Except Failure Value := do
  match ← s.cells.get a with
  | none => return .empty
  | some id =>
      match (s.store.get? id).bind Vertex.value? with
      | some v => return v
      | none => throw (.unknownVertex id)

/-- All values, row by row. -/
def values (s : Sheet) : Except Failure (List (List Value)) :=
  (List.range s.cells.height).mapM fun y =>
    (List.range s.cells.width).mapM fun x => s.valueAt ⟨s.cells.sheet, x, y⟩

end Sheet

end Recalc
