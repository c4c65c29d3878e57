import Recalc.Sheet.Failure

/-!
# From addresses and ranges to vertices

The map of cells is bounded by the sheet: asking it about an address outside is refused. Inside, an
address that nothing occupies or refers to has no vertex.
-/

namespace Recalc

structure CellMap where
  sheet : Nat
  width : Nat
  height : Nat
  vertices : Std.TreeMap Address VertexId

namespace CellMap

/-- The map of a sheet without vertices. -/
def empty (sheet width height : Nat) : CellMap := ⟨sheet, width, height, ∅⟩

def inBounds (m : CellMap) (a : Address) : Bool :=
  a.sheet == m.sheet && a.col < m.width && a.row < m.height

/-- Whether every cell of a range is in bounds, which its two corners decide. -/
def rangeInBounds (m : CellMap) (r : Range) : Bool := m.inBounds r.start && m.inBounds r.last

/-- The vertex of an address in bounds. -/
def get (m : CellMap) (a : Address) : Except Failure (Option VertexId) :=
  if m.inBounds a then .ok m.vertices[a]? else .error (.outOfBounds a m.width m.height)

/-- Enter the vertex of an address in bounds. -/
def set (m : CellMap) (a : Address) (id : VertexId) : Except Failure CellMap :=
  if m.inBounds a then .ok { m with vertices := m.vertices.insert a id }
  else .error (.outOfBounds a m.width m.height)

/-- The number of addresses with a vertex. -/
def size (m : CellMap) : Nat := m.vertices.size

theorem inBounds_iff {m : CellMap} {a : Address} :
    m.inBounds a = true ↔ a.sheet = m.sheet ∧ a.col < m.width ∧ a.row < m.height := by
  simp [inBounds, and_assoc]

end CellMap

/-- The vertices of ranges. A range has one vertex, whichever formulas name it. -/
structure RangeMap where
  vertices : Std.TreeMap Range VertexId

namespace RangeMap

def empty : RangeMap := ⟨∅⟩

def get? (m : RangeMap) (r : Range) : Option VertexId := m.vertices[r]?

def set (m : RangeMap) (r : Range) (id : VertexId) : RangeMap := ⟨m.vertices.insert r id⟩

def size (m : RangeMap) : Nat := m.vertices.size

@[simp] theorem get?_empty (r : Range) : empty.get? r = none := by simp [empty, get?]

theorem get?_set (m : RangeMap) (r other : Range) (id : VertexId) :
    (m.set r id).get? other = if r = other then some id else m.get? other := by
  simp [set, get?, Std.TreeMap.getElem?_insert]

end RangeMap

end Recalc
