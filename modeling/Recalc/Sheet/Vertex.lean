import Recalc.Expr
import Recalc.Value

/-!
# Vertices

A sheet is held as vertices: cells with a typed value, cells with a formula and the value it shows,
blank cells that something refers to, and ranges used as arguments.
-/

namespace Recalc

/-- The number of a vertex in its store. -/
structure VertexId where
  index : Nat
  deriving DecidableEq, Repr

namespace VertexId

instance : Ord VertexId where
  compare := compareOn index

theorem compare_def (a b : VertexId) : compare a b = compare a.index b.index := rfl

instance : Std.TransOrd VertexId := inferInstanceAs (Std.TransCmp (compareOn index))

instance : Std.LawfulEqOrd VertexId where
  compare_self := by simp
  eq_of_compare {a b} h := by
    cases a; cases b
    simpa [compare_def] using h

instance : ToString VertexId := ⟨fun id => s!"v{id.index}"⟩

end VertexId

inductive VertexKind where
  | value
  | formula
  | range
  | blank
  deriving DecidableEq, Repr

def VertexKind.name : VertexKind → String
  | value => "value cell"
  | formula => "formula cell"
  | range => "range"
  | blank => "empty cell"

inductive Vertex where
  | value (v : Value)
  /-- A formula, the cell it stands in and the value it shows. -/
  | formula (x : Expr) (home : Address) (shown : Value)
  | range (r : Range)
  | blank
  deriving Inhabited

namespace Vertex

def kind : Vertex → VertexKind
  | value _ => .value
  | formula .. => .formula
  | range _ => .range
  | blank => .blank

/-- The value of a cell; a range has none. -/
def value? : Vertex → Option Value
  | value v => some v
  | formula _ _ shown => some shown
  | range _ => none
  | blank => some .empty

def isFormula : Vertex → Bool
  | formula .. => true
  | _ => false

/-- The range that a range vertex stands for. -/
def range? : Vertex → Option Range
  | range r => some r
  | _ => none

/-- The vertex with another value, for cells that hold one. -/
def withValue? (v : Value) : Vertex → Option Vertex
  | value _ => some (value v)
  | formula x home _ => some (formula x home v)
  | range _ | blank => none

end Vertex

end Recalc
