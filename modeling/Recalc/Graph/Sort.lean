import Recalc.Graph.Cycles

/-!
# Sorting a graph for evaluation

Nodes are placed one after the other once all they read is placed. When none is left to place, every
node on a cycle is set aside, what those nodes fed is released, and placing goes on. So the placed
nodes follow what they read, and only the nodes on cycles are set aside.
-/

namespace Recalc

/-- The state of a sort. -/
structure Sorting where
  /-- How many arrows from nodes not yet dealt with lead to each node. -/
  waiting : Array Nat
  /-- The nodes that have been dealt with or set aside. -/
  gone : Marks
  /-- The nodes ready to be placed, in the order in which they became so. -/
  ready : Array Nat
  /-- How many of the ready nodes have been placed. -/
  placed : Nat
  /-- The nodes set aside. -/
  cycled : Array Nat

namespace Sorting

/-- The number of arrows to each node. Counted off the set of arrows of a graph that is built, in any
order, it is the same (`Graph.WellFormed.arrowsInto_eq`). -/
def arrowsInto (arrows : Arrows) : Array Nat :=
  arrows.toList.foldl (fun counts targets =>
      targets.toList.foldl (fun counts j => counts.modify j (· + 1)) counts)
    (Array.replicate arrows.size 0)

/-- The nodes that nothing leads to are ready at once. -/
def start (arrows : Arrows) : Sorting :=
  let waiting := arrowsInto arrows
  { waiting
    gone := Marks.none arrows.size
    ready := ((List.range arrows.size).filter fun i => waiting.getD i 0 == 0).toArray
    placed := 0
    cycled := #[] }

/-- Count one arrow to a node as dealt with; after its last one the node is ready. -/
def release (s : Sorting) (j : Nat) : Sorting :=
  let left := s.waiting.getD j 0 - 1
  { s with
    waiting := s.waiting.setIfInBounds j left
    ready := if left = 0 then s.ready.push j else s.ready }

/-- Place a ready node and release its dependents. -/
def place (arrows : Arrows) (s : Sorting) (i : Nat) : Sorting :=
  (arrows.next i).foldl release { s with gone := s.gone.add i, placed := s.placed + 1 }

/-- Place up to `limit` ready nodes. -/
def drain (arrows : Arrows) : Nat → Sorting → Sorting
  | 0, s => s
  | limit + 1, s =>
      match s.ready[s.placed]? with
      | none => s
      | some i => drain arrows limit (s.place arrows i)

/-- Release the dependents of a node set aside, apart from those that are gone. -/
def releaseFrom (arrows : Arrows) (s : Sorting) (i : Nat) : Sorting :=
  (arrows.next i).foldl (fun s j => if s.gone.has j then s else s.release j) s

/-- Set nodes aside. -/
def setAside (arrows : Arrows) (s : Sorting) (members : List Nat) : Sorting :=
  let s := members.foldl (releaseFrom arrows) { s with gone := s.gone.addAll members }
  { s with cycled := s.cycled ++ members.toArray }

/-- Place what is ready and set the cycles aside, up to `limit` times. -/
def rounds (arrows : Arrows) : Nat → Sorting → Sorting
  | 0, s => s
  | limit + 1, s =>
      let s := s.drain arrows arrows.size
      if s.ready.size + s.cycled.size = arrows.size then s
      else
        match arrows.cycleMembers s.gone with
        | [] => s
        | members => rounds arrows limit (s.setAside arrows members)

/-- The state in which the sort of a graph ends. -/
def run (arrows : Arrows) : Sorting := rounds arrows (arrows.size + 1) (start arrows)

/-- The nodes set aside, by number. -/
def cycledInOrder (s : Sorting) : List Nat :=
  let marks := (Marks.none s.gone.size).addAll s.cycled.toList
  (List.range s.gone.size).filter marks.has

end Sorting

/-- An order of evaluation. -/
structure Order (α : Type) where
  /-- The nodes off the cycles, each behind all that it reads. -/
  sorted : List α
  /-- The nodes on cycles, in the order in which they were added. -/
  cycled : List α

/-- Sort the nodes of a graph for evaluation. -/
def Graph.sort {α : Type} [Ord α] (g : Graph α) : Order α :=
  let s := Sorting.run g.arrows
  ⟨g.named s.ready.toList, g.named s.cycledInOrder⟩

end Recalc
