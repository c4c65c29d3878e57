import Recalc.Evaluation.Operators
import Recalc.Function

/-!
# Arithmetic functions
-/

namespace Recalc.Function

/-- A function of one number, which has to give a finite number. -/
def ofNumber (f : Float → Float) (call : Call) : Eval Value :=
  Eval.settle do
    match call.arguments with
    | [] => throw .badValue
    | [a] => Value.ofFinite (f (← Attempt.number a.value))
    | _ => throw .notAvailable

/-- Add the numbers of a range's cells; the first error among them ends the sum. -/
def addCells : Float → List Value → Except ErrorKind Float
  | total, [] => .ok total
  | total, .number x :: rest => addCells (total + x) rest
  | _, .error e :: _ => .error e
  | total, _ :: rest => addCells total rest

/-- Add one argument: the numbers of a range, or a value coerced to a number. -/
def addArgument (total : Float) (a : Argument) : Attempt Float :=
  match a.range? with
  | some none => throw .badReference
  | some (some r) => do
      let values ← Attempt.rangeValues r
      addCells total values
  | none => return total + (← Attempt.number a.value)

/-- Add up to 255 arguments from left to right. -/
def sum (call : Call) : Eval Value :=
  Eval.settle do
    checkArity call.arguments.length 1 255
    let total ← call.arguments.foldlM addArgument 0
    Value.ofFinite total

def arithmetic : List Function := [
  ⟨"ABS", "ABS", false, ofNumber Float.abs⟩,
  ⟨"SUM", "SUM", false, sum⟩]

end Recalc.Function
