import Recalc.Evaluation.View

/-!
# Functions

A function sees its arguments unevaluated: for each it may ask for the value, or for the range if
the argument is written as one. So a function that looks at the shape of a range only reads no
cells. Of an argument a function sees nothing else, neither the expression nor a part of it, and of
the other functions it sees how many there are. So a function of a registry is one that evaluates
no expression but its arguments and calls no function by name; it reads the sheet as any evaluation
does.
-/

namespace Recalc

/-- What a function sees of an argument. How the argument is written otherwise stays hidden. -/
structure Argument where
  /-- The range, if the argument is written as one; nothing inside if a corner does not exist. -/
  range? : Option (Option Range)
  value : Eval Value

/-- A call with its unevaluated arguments, the cell it stands in and the number of functions. The
arguments' expressions and the functions themselves are not part of it. -/
structure Call where
  home : Address
  arguments : List Argument
  registered : Nat

structure Function where
  name : String
  /-- The key of the name in other languages. -/
  key : String
  /-- Whether the function reads none of its arguments' cells. -/
  shapeOnly : Bool
  run : Call → Eval Value

namespace Function

/-- Refuse a number of arguments outside `least` to `most`. -/
def checkArity (count least most : Nat) : Except ErrorKind Unit :=
  if count < least || most < count then .error .notAvailable else .ok ()

@[simp] theorem checkArity_eq_ok_iff {count least most : Nat} :
    checkArity count least most = .ok () ↔ least ≤ count ∧ count ≤ most := by
  by_cases h : count < least || most < count
  · simp only [checkArity, h]
    simp at h ⊢
    omega
  · simp only [checkArity, h]
    simp at h ⊢
    omega

end Function

namespace Argument

/-- The range that the argument has to be written as. -/
def range (a : Argument) : Except ErrorKind Range :=
  match a.range? with
  | none => .error .badValue
  | some none => .error .badReference
  | some (some r) => .ok r

end Argument

end Recalc
