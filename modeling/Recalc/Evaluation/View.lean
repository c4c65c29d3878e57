import Recalc.Sheet.CellMap
import Recalc.Sheet.Store

/-!
# What an evaluation sees

An evaluation reads the values of cells and may fill the caches of ranges; it changes nothing else.
-/

namespace Recalc

/-- The vertices and where to find them. -/
structure View where
  vertices : Array Vertex
  cells : CellMap
  ranges : RangeMap

namespace View

/-- The value at an address: blank where nothing is, an error outside the sheet. -/
def cellValue (view : View) (a : Address) : Value :=
  match view.cells.get a with
  | .error _ => .error .badReference
  | .ok none => .empty
  | .ok (some id) =>
      ((view.vertices[id.index]?).bind Vertex.value?).getD (.error .badReference)

/-- The vertex of a range that some formula has as an argument. -/
def rangeVertex? (view : View) (r : Range) : Option VertexId :=
  (view.ranges.get? r).filter fun id =>
    ((view.vertices[id.index]?).bind Vertex.range?).isSome

/-- The values of a range's cells, row by row. -/
def rangeCells (view : View) (r : Range) : List Value := r.addresses.map view.cellValue

end View

/-- A computation that reads a sheet and fills caches. -/
abbrev Eval := ReaderT View (StateM Caches)

/-- A computation that may end with an error value. -/
abbrev Attempt := ExceptT ErrorKind Eval

namespace Eval

/-- The value at an address. -/
def cell (a : Address) : Eval Value := return (← read).cellValue a

/-- The outcome of an attempt as a value. -/
def settle (attempt : Attempt Value) : Eval Value := return Value.ofExcept (← attempt.run)

end Eval

namespace Attempt

/-- The value of a computation that has to be other than an error. -/
def scalar (value : Eval Value) : Attempt Value := do
  match ← value with
  | .error e => throw e
  | v => return v

/-- The value of a computation as a number. -/
def number (value : Eval Value) : Attempt Float := do
  match (← value).toNumber with
  | .ok x => return x
  | .error e => throw e

/-- The vertex of a range, whose absence is an error value. -/
def rangeVertex (r : Range) : Attempt VertexId := do
  match (← read).rangeVertex? r with
  | some id => return id
  | none => throw .badReference

/-- The values of a range's cells, from its cache if that is filled. -/
def rangeValues (r : Range) : Attempt (List Value) := do
  let id ← rangeVertex r
  let view ← read
  let caches ← get
  let (values, cache) := (caches.get id).valuesOr fun _ => view.rangeCells r
  set (caches.set id cache)
  return values

/-- The first row of a range whose first cell equals `key`, by the index of its first column. -/
def findRow (key : Value) (r : Range) : Attempt (Option Nat) := do
  let id ← rangeVertex r
  let values ← rangeValues r
  let caches ← get
  let (index, cache) := (caches.get id).columnOr fun _ =>
    ColumnIndex.ofList (RangeCache.firstColumn r.width values)
  set (caches.set id cache)
  return index.find? key

end Attempt

end Recalc
