import Std.Data.TreeMap

/-!
# Cell addresses

Sheet, column and row, each counted from zero. Addresses are ordered by sheet, then by column, then
by row.
-/

namespace Recalc

structure Address where
  sheet : Nat
  col : Nat
  row : Nat
  deriving DecidableEq, Repr

namespace Address

instance : Ord Address where
  compare := compareLex (compareOn sheet) (compareLex (compareOn col) (compareOn row))

theorem compare_def (a b : Address) :
    compare a b = (compare a.sheet b.sheet).then
      ((compare a.col b.col).then (compare a.row b.row)) := rfl

instance : Std.TransOrd Address :=
  inferInstanceAs (Std.TransCmp
    (compareLex (compareOn sheet) (compareLex (compareOn col) (compareOn row))))

instance : Std.LawfulEqOrd Address where
  compare_self := by simp
  eq_of_compare {a b} h := by
    cases a; cases b
    simpa [compare_def, Ordering.then_eq_eq] using h

/-- Coordinates are 32-bit numbers. -/
def coordinateLimit : Nat := Nat.pow 2 32

/-- A coordinate moved by `delta`, if it stays in range. -/
def shiftCoordinate? (n : Nat) (delta : Int) : Option Nat :=
  let moved := (n : Int) + delta
  if 0 ≤ moved && moved < coordinateLimit then some moved.toNat else none

/-- The address `cols` columns to the right and `rows` rows down, if there is one. -/
def shift? (a : Address) (cols rows : Int) : Option Address :=
  (shiftCoordinate? a.col cols).bind fun col =>
    (shiftCoordinate? a.row rows).map fun row => { a with col, row }

@[simp] theorem shift?_zero {a : Address} (hc : a.col < coordinateLimit)
    (hr : a.row < coordinateLimit) : a.shift? 0 0 = some a := by
  simp [shift?, shiftCoordinate?, hc, hr]

end Address

end Recalc
