import Recalc.Sheet.RangeCache

/-!
# The vertex store

Vertices are numbered in the order in which they are inserted. The caches of the range vertices are
kept beside them.
-/

namespace Recalc

structure Store where
  vertices : Array Vertex
  caches : Caches

namespace Store

def empty : Store := ⟨#[], Caches.empty⟩

def size (s : Store) : Nat := s.vertices.size

/-- The number of the next vertex. -/
def nextId (s : Store) : VertexId := ⟨s.size⟩

/-- Add a vertex under the next number. -/
def insert (s : Store) (v : Vertex) : Store := { s with vertices := s.vertices.push v }

def get? (s : Store) (id : VertexId) : Option Vertex := s.vertices[id.index]?

/-- Put another vertex under a number that is in use. -/
def replace (s : Store) (id : VertexId) (v : Vertex) : Store :=
  { s with vertices := s.vertices.setIfInBounds id.index v }

/-- Give a cell another value; ranges and blank cells stay as they are. -/
def setValue (s : Store) (id : VertexId) (v : Value) : Store :=
  match (s.get? id).bind (Vertex.withValue? v) with
  | some vertex => s.replace id vertex
  | none => s

/-- Forget what has been computed for a range. -/
def clearCache (s : Store) (id : VertexId) : Store := { s with caches := s.caches.clear id }

/-- The vertices with their numbers. -/
def toList (s : Store) : List (VertexId × Vertex) :=
  s.vertices.toList.zipIdx.map fun entry => (⟨entry.2⟩, entry.1)

def formulaCount (s : Store) : Nat := s.vertices.toList.countP Vertex.isFormula

@[simp] theorem size_empty : empty.size = 0 := rfl

@[simp] theorem size_insert (s : Store) (v : Vertex) : (s.insert v).size = s.size + 1 := by
  simp [insert, size]

theorem get?_insert (s : Store) (v : Vertex) (id : VertexId) :
    (s.insert v).get? id = if id = s.nextId then some v else s.get? id := by
  cases id with
  | mk i =>
      simp only [insert, get?, nextId, size, Array.getElem?_push, VertexId.mk.injEq]

@[simp] theorem size_replace (s : Store) (id : VertexId) (v : Vertex) :
    (s.replace id v).size = s.size := by
  simp [replace, size]

end Store

end Recalc
