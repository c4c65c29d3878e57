import Recalc.ErrorKind
import Recalc.Range

/-!
# Formula expressions

References are kept as distances from the cell that holds the formula, so the same expression means
the same thing wherever the formula stands.
-/

namespace Recalc

/-- A cell so many columns and rows away from the formula. -/
structure Reference where
  cols : Int
  rows : Int
  deriving DecidableEq, Repr

namespace Reference

/-- The reference from `home` to `target`. -/
def between (home target : Address) : Reference :=
  ⟨(target.col : Int) - home.col, (target.row : Int) - home.row⟩

/-- The address meant by a formula at `home`, if it exists. -/
def resolve? (r : Reference) (home : Address) : Option Address := home.shift? r.cols r.rows

end Reference

/-- A range given by two opposite corners. -/
structure RangeReference where
  first : Reference
  second : Reference
  deriving DecidableEq, Repr

/-- The range meant by a formula at `home`, if both corners exist. -/
def RangeReference.resolve? (r : RangeReference) (home : Address) : Option Range :=
  (r.first.resolve? home).bind fun a => (r.second.resolve? home).map (Range.ofCorners a)

inductive BinaryOp where
  | add
  | subtract
  | multiply
  | divide
  | power
  | equal
  | notEqual
  | lessThan
  | lessEqual
  | greaterThan
  | greaterEqual
  | concat
  deriving DecidableEq, Repr

inductive UnaryOp where
  | negate
  | percent
  deriving DecidableEq, Repr

inductive Expr where
  | number (x : Float)
  | text (s : String)
  | boolean (b : Bool)
  | error (e : ErrorKind)
  | cell (r : Reference)
  | range (r : RangeReference)
  | binary (op : BinaryOp) (left right : Expr)
  | unary (op : UnaryOp) (operand : Expr)
  | paren (inner : Expr)
  | call (name : String) (arguments : List Expr)
  deriving Inhabited

end Recalc
