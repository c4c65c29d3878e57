import Recalc.Expr

/-!
# What a formula reads

The cells and ranges named in an expression, in the order of the text and as often as they are
named. References that lead off the sheet's edge name nothing.
-/

namespace Recalc

inductive Dependency where
  | cell (a : Address)
  | range (r : Range)
  deriving DecidableEq

namespace Expr

mutual

/-- The cells and ranges that an expression at `home` names outside the arguments of the functions
that `skip` picks. -/
def dependencies (skip : String → Bool) (home : Address) : Expr → List Dependency
  | number _ | text _ | boolean _ | error _ => []
  | cell r => ((r.resolve? home).map Dependency.cell).toList
  | range r => ((r.resolve? home).map Dependency.range).toList
  | binary _ left right => left.dependencies skip home ++ right.dependencies skip home
  | unary _ operand => operand.dependencies skip home
  | paren inner => inner.dependencies skip home
  | call name arguments => if skip name then [] else dependenciesOf skip home arguments

/-- The dependencies of a list of expressions. -/
def dependenciesOf (skip : String → Bool) (home : Address) : List Expr → List Dependency
  | [] => []
  | x :: xs => x.dependencies skip home ++ dependenciesOf skip home xs

end

@[simp] theorem dependenciesOf_eq_flatMap (skip : String → Bool) (home : Address)
    (xs : List Expr) : dependenciesOf skip home xs = xs.flatMap (dependencies skip home) := by
  induction xs with
  | nil => rfl
  | cons x xs ih => simp [dependenciesOf, ih]

end Expr

end Recalc
