import Recalc.Graph

/-!
# Nodes on cycles

Among the nodes that are not gone, a forward search records the order in which nodes are finished.
Taking them from the last finished to the first and gathering against the arrows splits the nodes
into strongly connected components. A component is a cycle when it has several nodes, or one with an
arrow to itself.
-/

namespace Recalc

/-- A set of node numbers. -/
abbrev Marks := Array Bool

namespace Marks

def none (n : Nat) : Marks := Array.replicate n false

def has (marks : Marks) (i : Nat) : Bool := marks.getD i false

def add (marks : Marks) (i : Nat) : Marks := marks.setIfInBounds i true

def addAll (marks : Marks) (is : List Nat) : Marks := is.foldl add marks

end Marks

/-- The state of the forward search, with the last finished node in front. -/
structure Search where
  visited : Marks
  finished : List Nat

namespace Arrows

/-- Visit a node and what can be reached from it by at most `depth` nodes, and finish it. -/
def visit (arrows : Arrows) (gone : Marks) : Nat → Nat → Search → Search
  | 0, _, s => s
  | depth + 1, node, s =>
      if gone.has node || s.visited.has node then s
      else
        let s := (arrows.next node).foldl (fun s next => visit arrows gone depth next s)
          { s with visited := s.visited.add node }
        { s with finished := node :: s.finished }

/-- The nodes that are not gone, the last finished first. -/
def finished (arrows : Arrows) (gone : Marks) : List Nat :=
  ((List.range arrows.size).foldl (fun s root => arrows.visit gone arrows.size root s)
    ⟨Marks.none arrows.size, []⟩).finished

/-- The arrows between nodes that are not gone, turned round. -/
def reversed (arrows : Arrows) (gone : Marks) : Arrows :=
  (List.range arrows.size).foldl (fun back i =>
      if gone.has i then back
      else (arrows.next i).foldl (fun back j =>
        if gone.has j then back else back.modify j (·.push i)) back)
    (Array.replicate arrows.size #[])

/-- A component while it is gathered: the nodes still to be followed, those that belong to some
component, and this one's in the order in which they were found. -/
structure Gathering where
  pending : List Nat
  assigned : Marks
  members : Array Nat

/-- Put a node into the component, unless it belongs to one already. -/
def Gathering.meet (s : Gathering) (i : Nat) : Gathering :=
  if s.assigned.has i then s
  else ⟨i :: s.pending, s.assigned.add i, s.members.push i⟩

/-- Follow up to `limit` nodes against the arrows. -/
def gather (back : Arrows) : Nat → Gathering → Gathering
  | 0, s => s
  | limit + 1, s =>
      match s.pending with
      | [] => s
      | node :: pending =>
          gather back limit ((back.next node).foldl Gathering.meet { s with pending })

/-- Whether a component that was gathered from `root` is a cycle. In a graph that is built, the set of
arrows has a loop when its node lists it (`Graph.WellFormed.isCycle_eq`). -/
def isCycle (arrows : Arrows) (root : Nat) (members : Array Nat) : Bool :=
  1 < members.size || (arrows.next root).contains root

/-- Gather the component of `root`, unless it has been gathered, and keep it if it is a cycle. -/
def gatherFrom (arrows back : Arrows) (found : Marks × Array Nat) (root : Nat) :
    Marks × Array Nat :=
  if found.1.has root then found
  else
    let s := gather back arrows.size ⟨[root], found.1.add root, #[root]⟩
    (s.assigned, if arrows.isCycle root s.members then found.2 ++ s.members else found.2)

/-- The nodes on a cycle of nodes that are not gone, component by component. -/
def cycleMembers (arrows : Arrows) (gone : Marks) : List Nat :=
  ((arrows.finished gone).foldl (arrows.gatherFrom (arrows.reversed gone))
    (Marks.none arrows.size, #[])).2.toList

end Arrows

end Recalc
