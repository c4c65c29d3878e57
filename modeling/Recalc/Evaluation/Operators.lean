import Recalc.Expr
import Recalc.Value

/-!
# Operators on values

An error operand decides the result, the left one first. Arithmetic coerces its operands to numbers
and never gives an infinite result. Comparison orders numbers before texts before booleans, and a
blank counts as the blank value of the other operand's type.
-/

namespace Recalc

namespace Value

/-- A finite result is a number. -/
def ofFinite (x : Float) : Except ErrorKind Value :=
  if x.isFinite then .ok (number x) else .error .badNumber

/-- Coerce two operands, the left one first, and combine them. -/
def arithmetic (f : Float → Float → Except ErrorKind Float) (left right : Value) : Value :=
  ofExcept do
    let x ← left.toNumber
    let y ← right.toNumber
    let z ← f x y
    ofFinite z

/-- Division by either zero is an error of its own. -/
def divide (x y : Float) : Except ErrorKind Float :=
  if y == 0 then .error .divideByZero else .ok (x / y)

/-- What a blank counts as beside another operand. -/
def blankFor : Value → Value
  | text _ => text ""
  | boolean _ => boolean false
  | _ => number 0

/-- Numbers are ordered by size; an operand that is not a number at all equals every number. -/
def compareNumbers (x y : Float) : Ordering :=
  if x < y then .lt else if y < x then .gt else .eq

/-- Texts are ordered by their small letters. -/
def compareTexts (s t : String) : Ordering := compare (Text.toSmalls s) (Text.toSmalls t)

def compareBooleans : Bool → Bool → Ordering
  | false, true => .lt
  | true, false => .gt
  | _, _ => .eq

/-- The place of a type in the order of types. -/
def typeRank : Value → Nat
  | empty | number _ => 0
  | text _ => 1
  | boolean _ => 2
  | error _ => 3

/-- Compare two operands neither of which is blank beside another type. -/
def compareFilled : Value → Value → Ordering
  | number x, number y => compareNumbers x y
  | text s, text t => compareTexts s t
  | boolean a, boolean b => compareBooleans a b
  | left, right => compare left.typeRank right.typeRank

def compareValues : Value → Value → Ordering
  | empty, right => compareFilled right.blankFor right
  | left, empty => compareFilled left left.blankFor
  | left, right => compareFilled left right

end Value

namespace BinaryOp

/-- The result for operands that are not errors. -/
def applyTo (left right : Value) : BinaryOp → Value
  | add => Value.arithmetic (fun x y => .ok (x + y)) left right
  | subtract => Value.arithmetic (fun x y => .ok (x - y)) left right
  | multiply => Value.arithmetic (fun x y => .ok (x * y)) left right
  | divide => Value.arithmetic Value.divide left right
  | power => Value.arithmetic (fun x y => .ok (x.pow y)) left right
  | equal => .boolean (Value.compareValues left right).isEq
  | notEqual => .boolean (Value.compareValues left right).isNe
  | lessThan => .boolean (Value.compareValues left right).isLT
  | lessEqual => .boolean (Value.compareValues left right).isLE
  | greaterThan => .boolean (Value.compareValues left right).isGT
  | greaterEqual => .boolean (Value.compareValues left right).isGE
  | concat => .text (left.display ++ right.display)

def apply (op : BinaryOp) (left right : Value) : Value :=
  match left.error?, right.error? with
  | some e, _ => .error e
  | none, some e => .error e
  | none, none => op.applyTo left right

@[simp] theorem apply_error_left (op : BinaryOp) (e : ErrorKind) (v : Value) :
    op.apply (.error e) v = .error e := rfl

end BinaryOp

/-- Coerce the operand and change its sign or take a hundredth of it. -/
def UnaryOp.apply (op : UnaryOp) (v : Value) : Value :=
  match v.toNumber with
  | .error e => .error e
  | .ok x =>
      match op with
      | .negate => .number (-x)
      | .percent => .number (x / 100)

@[simp] theorem UnaryOp.apply_error (op : UnaryOp) (e : ErrorKind) :
    op.apply (.error e) = .error e := rfl

end Recalc
