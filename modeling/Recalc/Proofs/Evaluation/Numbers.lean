import Recalc.Evaluation.Operators
import Recalc.Proofs.Double.NotANumber
import Recalc.Proofs.Outcome

/-!
# Values that are numbers

A value is proper unless it is given as a number and is none. Typed content is proper, operators and
coercions keep to proper values, and arithmetic cannot leave them: an infinite or undefined result
is an error value.
-/

namespace Recalc

namespace Value

/-- What is given as a number is one. -/
def Proper : Value → Prop
  | number x => x.isNaN = false
  | _ => True

variable {v : Value} {x : Float}

theorem eq_of_number? (h : v.number? = some x) : v = .number x := by
  cases v with
  | number y => exact congrArg number (Option.some.inj h)
  | _ => cases h

theorem proper_ofContent (raw : String) : (ofContent raw).Proper := by
  rw [ofContent]
  split
  · trivial
  · split
    · next h => exact Decimal.isNaN_of_readFinite? h
    · trivial

theorem Proper.isNaN_of_toNumber (hv : v.Proper) (h : v.toNumber = .ok x) : x.isNaN = false := by
  cases v with
  | number y => exact Except.ok.inj h ▸ hv
  | boolean b =>
      obtain rfl := Except.ok.inj h
      cases b <;> decide
  | empty =>
      obtain rfl := Except.ok.inj h
      decide
  | text s =>
      rw [toNumber] at h
      split at h
      · next hs => exact Except.ok.inj h ▸ Decimal.isNaN_of_readFinite? hs
      · cases h
  | error e => cases h

theorem proper_of_ofFinite (h : ofFinite x = .ok v) : v.Proper := by
  rw [ofFinite] at h
  split at h
  · next hx => exact Except.ok.inj h ▸ Double.isNaN_of_isFinite hx
  · cases h

theorem proper_ofExcept {outcome : Except ErrorKind Value}
    (h : ∀ v, outcome = .ok v → v.Proper) : (ofExcept outcome).Proper := by
  cases outcome with
  | error e => trivial
  | ok v => exact h v rfl

theorem proper_arithmetic (f : Float → Float → Except ErrorKind Float) (left right : Value) :
    (arithmetic f left right).Proper := by
  refine proper_ofExcept fun v h => ?_
  obtain ⟨x, -, h⟩ := exists_of_bind_eq_ok h
  obtain ⟨y, -, h⟩ := exists_of_bind_eq_ok h
  obtain ⟨z, -, h⟩ := exists_of_bind_eq_ok h
  exact proper_of_ofFinite h

theorem proper_ofNat (n : Nat) : (number (Double.ofNat n)).Proper := Double.isNaN_ofNat n

theorem proper_ofInt (n : Int) : (ofInt n).Proper := Double.isNaN_ofInt n

end Value

variable {v : Value}

theorem BinaryOp.proper_apply (op : BinaryOp) (left right : Value) :
    (op.apply left right).Proper := by
  rw [apply]
  split
  · trivial
  · trivial
  · cases op with
    | add | subtract | multiply | divide | power => exact Value.proper_arithmetic _ _ _
    | _ => trivial

theorem UnaryOp.proper_apply (op : UnaryOp) (hv : v.Proper) : (op.apply v).Proper := by
  rw [apply]
  split
  · trivial
  · next x hx =>
      have hnumber := hv.isNaN_of_toNumber hx
      cases op with
      | negate => exact (Double.isNaN_neg x).trans hnumber
      | percent => exact Double.isNaN_div_hundred hnumber

end Recalc
