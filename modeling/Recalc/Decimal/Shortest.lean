/-!
# Shortest decimals of binary numbers

A positive double `mantissa · 2 ^ exponent` owns the interval of reals that round to it, ends
included when the mantissa is even. Of the decimals in the interval the one with fewest digits is
chosen, of two such the nearer, and the larger one when both are equally near.
-/

namespace Recalc.Decimal

/-- The decimal `coefficient · 10 ^ exponent`. -/
structure Scaled where
  coefficient : Nat
  exponent : Int
  deriving DecidableEq, Repr

/-- A positive number and the ends of its rounding interval, over one denominator. -/
structure Target where
  low : Nat
  value : Nat
  high : Nat
  denominator : Nat
  ends : Bool

/-- The rounding interval of the double `mantissa · 2 ^ exponent`. Below a power of two the
neighbour is only half as far away, except among the smallest numbers. -/
def Target.ofBinary (mantissa : Nat) (exponent : Int) : Target :=
  let below := if mantissa = Nat.pow 2 52 && exponent > -1074 then 1 else 2
  let scale := Nat.pow 2 (exponent - 2).toNat
  { low := (4 * mantissa - below) * scale
    value := 4 * mantissa * scale
    high := (4 * mantissa + 2) * scale
    denominator := Nat.pow 2 (2 - exponent).toNat
    ends := mantissa % 2 == 0 }

/-- The same interval, measured in units of `10 ^ power`. -/
def Target.rescale (t : Target) (power : Int) : Target :=
  let up := Nat.pow 10 (-power).toNat
  { low := t.low * up
    value := t.value * up
    high := t.high * up
    denominator := t.denominator * Nat.pow 10 power.toNat
    ends := t.ends }

/-- Whether a whole number of units lies in the interval. -/
def Target.holds (t : Target) (units : Nat) : Bool :=
  let x := units * t.denominator
  if t.ends then t.low ≤ x && x ≤ t.high else t.low < x && x < t.high

/-- The whole number of units in the interval that is nearest to the value, if there is one. -/
def Target.nearest? (t : Target) : Option Nat :=
  let below := t.value / t.denominator
  let above := below + 1
  match t.holds below, t.holds above with
  | true, true =>
      if t.value - below * t.denominator < above * t.denominator - t.value then some below
      else some above
  | true, false => some below
  | false, true => some above
  | false, false => none

/-- The number of decimal digits, where zero has none. -/
def digitCount (n : Nat) : Nat := if n = 0 then 0 else (Nat.toDigits 10 n).length

/-- The exponent of the leading decimal digit. -/
def Target.leading (t : Target) : Int :=
  if t.denominator ≤ t.value then (digitCount (t.value / t.denominator) : Int) - 1
  else -(digitCount ((t.denominator - 1) / t.value) : Int)

/-- Refine the unit until a whole number of units fits. -/
def Target.refine (t : Target) : Nat → Int → Scaled
  | 0, power => ⟨(t.rescale power).value / (t.rescale power).denominator, power⟩
  | steps + 1, power =>
      match (t.rescale power).nearest? with
      | some units => ⟨units, power⟩
      | none => t.refine steps (power - 1)

/-- Move trailing zeros of the coefficient into the exponent. -/
def Scaled.normalize : Nat → Scaled → Scaled
  | 0, d => d
  | steps + 1, d =>
      if d.coefficient % 10 = 0 then
        normalize steps ⟨d.coefficient / 10, d.exponent + 1⟩
      else d

/-- The shortest decimal of `mantissa · 2 ^ exponent`; seventeen digits always suffice. -/
def shortest (mantissa : Nat) (exponent : Int) : Scaled :=
  let target := Target.ofBinary mantissa exponent
  (target.refine 17 target.leading).normalize 2

end Recalc.Decimal
