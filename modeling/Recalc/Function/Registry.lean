import Recalc.Function.Arithmetic
import Recalc.Function.Binary
import Recalc.Function.Lookup

/-!
# The functions that formulas can call

Functions are found by name in either case. Registering a name again replaces the earlier function.
-/

namespace Recalc

structure Registry where
  functions : Std.TreeMap String Function

namespace Registry

def empty : Registry := ⟨∅⟩

/-- Enter a function under its name in capitals. -/
def register (r : Registry) (f : Function) : Registry :=
  ⟨r.functions.insert (Text.toCapitals f.name) f⟩

/-- Enter functions from first to last. -/
def registerAll (r : Registry) (fs : List Function) : Registry := fs.foldl register r

/-- The function of a name in either case. -/
def find? (r : Registry) (name : String) : Option Function := r.functions[Text.toCapitals name]?

def contains (r : Registry) (name : String) : Bool := (r.find? name).isSome

/-- Whether a call reads none of its arguments' cells. -/
def shapeOnly (r : Registry) (name : String) : Bool := (r.find? name).any Function.shapeOnly

/-- The functions, ordered by name as spelled. -/
def definitions (r : Registry) : List Function :=
  r.functions.values.mergeSort fun f g => f.name ≤ g.name

def size (r : Registry) : Nat := r.functions.size

/-- The functions that are always there. -/
def builtin : Registry :=
  empty.registerAll (Function.arithmetic ++ Function.binary ++ Function.lookup)

@[simp] theorem find?_empty (name : String) : empty.find? name = none := by
  simp [empty, find?]

theorem find?_register (r : Registry) (f : Function) (name : String) :
    (r.register f).find? name =
      if Text.toCapitals f.name = Text.toCapitals name then some f else r.find? name := by
  simp [register, find?, Std.TreeMap.getElem?_insert]

end Registry

end Recalc
