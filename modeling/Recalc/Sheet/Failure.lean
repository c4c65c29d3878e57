import Recalc.Sheet.Vertex

/-!
# Refused operations

Why an operation on a sheet is refused. Error values are not failures: they are data in cells.
-/

namespace Recalc

/-- Why the content of a cell cannot be set. -/
inductive EditObstacle where
  | formulaContent
  | formulaCell
  | rangeVertex
  deriving DecidableEq, Repr

def EditObstacle.message : EditObstacle → String
  | formulaContent => "formula content cannot be set on a loaded sheet"
  | formulaCell => "cell holds a formula"
  | rangeVertex => "address maps to a range vertex"

inductive Failure where
  | badAddress (cause : NotationError)
  | outOfBounds (a : Address) (width height : Nat)
  | refusedEdit (a : Address) (obstacle : EditObstacle)
  | nonFormulaOnCycle (kind : VertexKind) (id : VertexId)
  | unknownVertex (id : VertexId)
  | notLoaded
  deriving DecidableEq, Repr

namespace Failure

def message : Failure → String
  | badAddress cause => cause.message
  | outOfBounds a width height =>
      s!"Address {a} out of bounds (sheet is {width} columns x {height} rows)"
  | refusedEdit a obstacle => s!"Cannot set content of {a}: {obstacle.message}"
  | nonFormulaOnCycle kind id =>
      s!"Only formula vertices can be on a cycle, found {kind.name} {id}"
  | unknownVertex id => s!"Unknown graph vertex: {id}"
  | notLoaded => "No sheet loaded"

end Failure

end Recalc
