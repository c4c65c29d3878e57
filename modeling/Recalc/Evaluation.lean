import Recalc.Evaluation.Operators
import Recalc.Function.Registry

/-!
# Evaluating expressions

Operands are evaluated from left to right. A range is not a value, so outside a function that looks
at ranges it is an error.
-/

namespace Recalc.Expr

/-- The range that an expression is written as, for a formula at `home`. -/
def literalRange? (home : Address) : Expr → Option (Option Range)
  | range r => some (r.resolve? home)
  | _ => none

mutual

/-- The value of an expression in a formula at `home`. -/
def evaluate (functions : Registry) (home : Address) : Expr → Eval Value
  | number x => return .number x
  | text s => return .text s
  | boolean b => return .boolean b
  | error e => return .error e
  | cell r =>
      match r.resolve? home with
      | some a => Eval.cell a
      | none => return .error .badReference
  | range _ => return .error .badValue
  | binary op left right => do
      let x ← left.evaluate functions home
      let y ← right.evaluate functions home
      return op.apply x y
  | unary op operand => return op.apply (← operand.evaluate functions home)
  | paren inner => inner.evaluate functions home
  | call name arguments =>
      match functions.find? name with
      | some f => f.run ⟨home, argumentsOf functions home arguments, functions.size⟩
      | none => return .error .unknownName

/-- Arguments as a function sees them. -/
def argumentsOf (functions : Registry) (home : Address) : List Expr → List Argument
  | [] => []
  | x :: xs =>
      ⟨x.literalRange? home, x.evaluate functions home⟩ :: argumentsOf functions home xs

end

@[simp] theorem argumentsOf_eq_map (functions : Registry) (home : Address) (xs : List Expr) :
    argumentsOf functions home xs =
      xs.map fun x => ⟨x.literalRange? home, x.evaluate functions home⟩ := by
  induction xs with
  | nil => rfl
  | cons x xs ih => simp [argumentsOf, ih]

end Recalc.Expr
