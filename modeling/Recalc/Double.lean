/-!
# Whole numbers among doubles

Exact questions about a double's value, answered on its mantissa and exponent.
-/

namespace Recalc.Double

open Float.Model

/-- Whether a double is finite and has no fraction. -/
def isWhole (x : Float) : Bool :=
  match x.toModel.unpack with
  | .zero _ => true
  | .finite _ mantissa exponent _ => mantissa % Nat.pow 2 (-exponent).toNat == 0
  | .infinity _ | .notANumber => false

/-- The integer left when a finite double's fraction is cut off. -/
def integerPart? (x : Float) : Option Int :=
  match x.toModel.unpack with
  | .zero _ => some 0
  | .finite sign mantissa exponent _ =>
      let magnitude := mantissa * Nat.pow 2 exponent.toNat / Nat.pow 2 (-exponent).toNat
      some (match sign with
        | .positive => magnitude
        | .negative => -magnitude)
  | .infinity _ | .notANumber => none

/-- The natural number that a double equals, if it equals one. -/
def toNat? (x : Float) : Option Nat :=
  if isWhole x then
    (integerPart? x).bind fun n => if 0 ≤ n then some n.toNat else none
  else none

/-- The double that equals a number below `2 ^ 53`. -/
def ofNat (n : Nat) : Float := n.toUInt64.toFloat

end Recalc.Double
