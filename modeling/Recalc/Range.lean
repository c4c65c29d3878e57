import Recalc.Address.Notation

/-!
# Rectangular ranges

A range is a rectangle of at least one cell on one sheet. Its cells are listed row by row.
-/

namespace Recalc

structure Range where
  start : Address
  width : Nat
  height : Nat
  width_pos : 0 < width
  height_pos : 0 < height
  deriving DecidableEq

namespace Range

instance : Ord Range where
  compare := compareLex (compareOn start) (compareLex (compareOn width) (compareOn height))

theorem compare_def (a b : Range) :
    compare a b = (compare a.start b.start).then
      ((compare a.width b.width).then (compare a.height b.height)) := rfl

instance : Std.TransOrd Range :=
  inferInstanceAs (Std.TransCmp
    (compareLex (compareOn start) (compareLex (compareOn width) (compareOn height))))

instance : Std.LawfulEqOrd Range where
  compare_self := by simp
  eq_of_compare {a b} h := by
    cases a; cases b
    simpa [compare_def, Ordering.then_eq_eq] using h

/-- The range of the given size, or of one row or column where that is zero. -/
def spanning (start : Address) (width height : Nat) : Range where
  start := start
  width := max width 1
  height := max height 1
  width_pos := by omega
  height_pos := by omega

/-- The smallest range with both corners, on the sheet of the first. -/
def ofCorners (a b : Address) : Range where
  start := ⟨a.sheet, min a.col b.col, min a.row b.row⟩
  width := max a.col b.col - min a.col b.col + 1
  height := max a.row b.row - min a.row b.row + 1
  width_pos := by omega
  height_pos := by omega

/-- The number of cells. -/
def size (r : Range) : Nat := r.width * r.height

/-- The cell so many columns and rows from the start. -/
def address (r : Range) (cols rows : Nat) : Address :=
  ⟨r.start.sheet, r.start.col + cols, r.start.row + rows⟩

/-- The corner opposite to the start. -/
def last (r : Range) : Address := r.address (r.width - 1) (r.height - 1)

def firstColumn (r : Range) : Range := spanning r.start 1 r.height

def contains (r : Range) (a : Address) : Bool :=
  a.sheet == r.start.sheet
    && r.start.col ≤ a.col && a.col - r.start.col < r.width
    && r.start.row ≤ a.row && a.row - r.start.row < r.height

/-- Both corners in A1 notation. -/
def toA1 (r : Range) : String := s!"{r.start}:{r.last}"

instance : ToString Range := ⟨toA1⟩

/-- The cell at a position in row-major order. -/
def nth (r : Range) (position : Nat) : Address :=
  r.address (position % r.width) (position / r.width)

/-- All cells in row-major order. -/
def addresses (r : Range) : List Address := (List.range r.size).map r.nth

@[simp] theorem length_addresses (r : Range) : r.addresses.length = r.size := by
  simp [addresses]

/-- A walk over the cells of a range. -/
structure Cursor where
  range : Range
  position : Nat

/-- The walk that has not left the first cell. -/
def cursor (r : Range) : Cursor := ⟨r, 0⟩

namespace Cursor

/-- The next cell and the walk behind it. -/
def next? (c : Cursor) : Option (Address × Cursor) :=
  if c.position < c.range.size then some (c.range.nth c.position, ⟨c.range, c.position + 1⟩)
  else none

/-- The number of cells still ahead. -/
def remaining (c : Cursor) : Nat := c.range.size - c.position

/-- Up to `n` more cells, and the walk behind them. -/
def take (c : Cursor) : Nat → List Address × Cursor
  | 0 => ([], c)
  | n + 1 =>
      match c.next? with
      | none => ([], c)
      | some (a, c') =>
          let (more, c'') := c'.take n
          (a :: more, c'')

end Cursor

end Range

end Recalc
