import Std.Data.TreeMap
import Std.Data.TreeSet

/-!
# Dependency graphs

Nodes are numbered in the order in which they were added. An arrow from a node to a dependent says
that the dependent reads the node; each node lists its dependents in the order of their arrows, and
all arrows are in a set besides.
-/

namespace Recalc

/-- An arrow between two nodes, by number. -/
structure Graph.Arrow where
  source : Nat
  target : Nat
  deriving DecidableEq, Repr

namespace Graph.Arrow

instance : Ord Arrow where
  compare := compareLex (compareOn source) (compareOn target)

theorem compare_def (a b : Arrow) :
    compare a b = (compare a.source b.source).then (compare a.target b.target) := rfl

instance : Std.TransOrd Arrow :=
  inferInstanceAs (Std.TransCmp (compareLex (compareOn source) (compareOn target)))

instance : Std.LawfulEqOrd Arrow where
  compare_self := by simp
  eq_of_compare {a b} h := by
    cases a; cases b
    simpa [compare_def, Ordering.then_eq_eq] using h

end Graph.Arrow

/-- The dependents of each node, all by number. -/
abbrev Arrows := Array (Array Nat)

/-- The dependents of a node. -/
def Arrows.next (arrows : Arrows) (i : Nat) : List Nat := (arrows.getD i #[]).toList

/-- An end of an arrow that is no node. -/
structure UnknownNode (α : Type) where
  node : α

def UnknownNode.message {α : Type} [ToString α] (e : UnknownNode α) : String :=
  s!"Unknown graph vertex: {e.node}"

structure Graph (α : Type) [Ord α] where
  nodes : Array α
  numbers : Std.TreeMap α Nat
  arrows : Arrows
  edges : Std.TreeSet Graph.Arrow

namespace Graph

variable {α : Type} [Ord α]

def empty : Graph α := ⟨#[], ∅, #[], ∅⟩

/-- The number of a node. -/
def number? (g : Graph α) (a : α) : Option Nat := g.numbers[a]?

def contains (g : Graph α) (a : α) : Bool := (g.number? a).isSome

/-- Add a node without arrows, and tell whether it is new. Nothing is added otherwise. -/
def insertNode (g : Graph α) (a : α) : Bool × Graph α :=
  if g.contains a then (false, g)
  else
    (true, { g with
      nodes := g.nodes.push a
      numbers := g.numbers.insert a g.nodes.size
      arrows := g.arrows.push #[] })

/-- Add a node without arrows, if it is new. -/
def addNode (g : Graph α) (a : α) : Graph α := (g.insertNode a).2

/-- Whether there is an arrow between two numbered nodes. -/
def hasArrow (g : Graph α) (i j : Nat) : Bool := g.edges.contains ⟨i, j⟩

def hasEdge (g : Graph α) (a b : α) : Bool :=
  match g.number? a, g.number? b with
  | some i, some j => g.hasArrow i j
  | _, _ => false

/-- The number of a node that has to be there. -/
def numberOf (g : Graph α) (a : α) : Except (UnknownNode α) Nat :=
  match g.number? a with
  | some i => .ok i
  | none => .error ⟨a⟩

/-- Add the arrow between two numbered nodes, if it is new. -/
def addArrow (g : Graph α) (i j : Nat) : Graph α :=
  if g.hasArrow i j then g
  else { g with arrows := g.arrows.modify i (·.push j), edges := g.edges.insert ⟨i, j⟩ }

/-- Add the arrow from `a` to `b`, if it is new. -/
def addEdge (g : Graph α) (a b : α) : Except (UnknownNode α) (Graph α) := do
  let i ← g.numberOf a
  let j ← g.numberOf b
  return g.addArrow i j

/-- Take the arrow between two numbered nodes away, and tell whether it was there. -/
def takeArrow (g : Graph α) (i j : Nat) : Bool × Graph α :=
  if g.hasArrow i j then
    (true, { g with
      arrows := g.arrows.modify i (·.filter (· != j))
      edges := g.edges.erase ⟨i, j⟩ })
  else (false, g)

/-- Take the arrow from `a` to `b` away, and tell whether it was there. -/
def takeEdge (g : Graph α) (a b : α) : Bool × Graph α :=
  match g.number? a, g.number? b with
  | some i, some j => g.takeArrow i j
  | _, _ => (false, g)

/-- Take the arrow from `a` to `b` away. -/
def removeEdge (g : Graph α) (a b : α) : Graph α := (g.takeEdge a b).2

/-- The nodes with given numbers. -/
def named (g : Graph α) (numbers : List Nat) : List α := numbers.filterMap (g.nodes[·]?)

/-- The nodes that read `a`, in the order of their arrows. -/
def dependents (g : Graph α) (a : α) : List α :=
  match g.number? a with
  | some i => g.named (g.arrows.next i)
  | none => []

/-- All nodes in the order in which they were added. -/
def toList (g : Graph α) : List α := g.nodes.toList

def nodeCount (g : Graph α) : Nat := g.nodes.size

def edgeCount (g : Graph α) : Nat := g.edges.size

@[simp] theorem toList_empty : (empty : Graph α).toList = [] := rfl

@[simp] theorem edgeCount_empty : (empty : Graph α).edgeCount = 0 := rfl

end Graph

end Recalc
