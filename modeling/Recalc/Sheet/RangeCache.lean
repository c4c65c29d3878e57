import Recalc.ColumnIndex
import Recalc.Sheet.Vertex

/-!
# Range caches

What has been computed from the cells of a range: their values row by row, and an index of the first
column. Caches are filled on first use and stay until they are cleared.
-/

namespace Recalc

structure RangeCache where
  values : Option (List Value)
  column : Option ColumnIndex

namespace RangeCache

def empty : RangeCache := ⟨none, none⟩

def isFilled (c : RangeCache) : Bool := c.values.isSome || c.column.isSome

/-- The cached values, or new ones that are then cached. -/
def valuesOr (c : RangeCache) (fresh : Unit → List Value) : List Value × RangeCache :=
  match c.values with
  | some values => (values, c)
  | none =>
      let values := fresh ()
      (values, { c with values := some values })

/-- The cached index, or a new one that is then cached. -/
def columnOr (c : RangeCache) (fresh : Unit → ColumnIndex) : ColumnIndex × RangeCache :=
  match c.column with
  | some index => (index, c)
  | none =>
      let index := fresh ()
      (index, { c with column := some index })

/-- Every `width`-th element, after leaving out `ahead` elements. -/
def everyNth {α : Type} (width : Nat) : Nat → List α → List α
  | _, [] => []
  | 0, x :: rest => x :: everyNth width (width - 1) rest
  | ahead + 1, _ :: rest => everyNth width ahead rest

/-- The first column of a table given row by row. -/
def firstColumn {α : Type} (width : Nat) (values : List α) : List α := everyNth width 0 values

end RangeCache

/-- The caches of all range vertices. -/
structure Caches where
  filled : Std.TreeMap VertexId RangeCache

namespace Caches

def empty : Caches := ⟨∅⟩

/-- The cache of a vertex, which starts empty. -/
def get (c : Caches) (id : VertexId) : RangeCache := c.filled.getD id RangeCache.empty

def set (c : Caches) (id : VertexId) (cache : RangeCache) : Caches := ⟨c.filled.insert id cache⟩

/-- Forget what has been computed for a vertex. -/
def clear (c : Caches) (id : VertexId) : Caches := ⟨c.filled.erase id⟩

@[simp] theorem get_empty (id : VertexId) : empty.get id = RangeCache.empty := by
  simp [empty, get]

theorem get_set (c : Caches) (id other : VertexId) (cache : RangeCache) :
    (c.set id cache).get other = if id = other then cache else c.get other := by
  simp [set, get, Std.TreeMap.getD_insert]

theorem get_clear (c : Caches) (id other : VertexId) :
    (c.clear id).get other = if id = other then RangeCache.empty else c.get other := by
  simp [clear, get, Std.TreeMap.getD_erase]

end Caches

end Recalc
