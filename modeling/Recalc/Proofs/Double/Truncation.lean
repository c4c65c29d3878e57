import Mathlib.Algebra.Order.Floor.Ring
import Mathlib.Algebra.Order.Monoid.Unbundled.WithTop
import Mathlib.Data.Int.ConditionallyCompleteOrder
import Mathlib.Data.Rat.Floor
import Mathlib.Tactic.Linarith
import Recalc.Double

/-!
# Numbers without their fractions

A finite double is a sign, a mantissa and an exponent, which stand for a rational number. Cutting
off the fraction of an infinite number leaves it as it is.
-/

namespace Recalc.Double

open Float.Model

/-- A rational number without its fraction. -/
def truncRat (q : ℚ) : ℤ := if 0 ≤ q then ⌊q⌋ else ⌈q⌉

/-- A number without its fraction; zero where there is no number. -/
def trunc (x : Float) : WithBot (WithTop ℤ) :=
  match x.toModel.unpack with
  | .zero _ | .notANumber => 0
  | .finite sign mantissa exponent _ =>
      ((truncRat (sign.apply mantissa * 2 ^ exponent) : ℤ) : WithTop ℤ)
  | .infinity .positive => (⊤ : WithTop ℤ)
  | .infinity .negative => ⊥

theorem two_zpow_eq_div (e : ℤ) : (2 : ℚ) ^ e = 2 ^ e.toNat / 2 ^ (-e).toNat := by
  rw [← zpow_natCast, ← zpow_natCast, ← zpow_sub₀ (by decide)]
  congr 1
  omega

theorem floor_mul_two_zpow (m : ℕ) (e : ℤ) :
    ⌊(m : ℚ) * 2 ^ e⌋ = ((m * 2 ^ e.toNat / 2 ^ (-e).toNat : ℕ) : ℤ) := by
  calc ⌊(m : ℚ) * 2 ^ e⌋ = ⌊((m * 2 ^ e.toNat : ℕ) : ℚ) / ((2 ^ (-e).toNat : ℕ) : ℚ)⌋ := by
        rw [two_zpow_eq_div, mul_div_assoc']
        push_cast
        rfl
    _ = ((m * 2 ^ e.toNat / 2 ^ (-e).toNat : ℕ) : ℤ) := by
        rw [Rat.floor_natCast_div_natCast]
        rfl

theorem truncRat_apply (sign : UnpackedFloat.Sign) {m : ℕ} (hpos : 0 < m) (e : ℤ) :
    truncRat (sign.apply m * 2 ^ e)
      = sign.apply ((m * 2 ^ e.toNat / 2 ^ (-e).toNat : ℕ) : ℤ) := by
  have hq : (0 : ℚ) < m * 2 ^ e := mul_pos (by exact_mod_cast hpos) (zpow_pos two_pos e)
  cases sign with
  | positive =>
      have hsame : ((UnpackedFloat.Sign.positive.apply m : ℤ) : ℚ) * 2 ^ e = m * 2 ^ e := by
        simp [UnpackedFloat.Sign.apply]
      rw [hsame, truncRat, if_pos hq.le, floor_mul_two_zpow]
      rfl
  | negative =>
      have hneg : ((UnpackedFloat.Sign.negative.apply m : ℤ) : ℚ) * 2 ^ e = -(m * 2 ^ e) := by
        simp [UnpackedFloat.Sign.apply]
      rw [hneg, truncRat, if_neg (by linarith), Int.ceil_neg, floor_mul_two_zpow]
      rfl

/-- The integer part of a finite double is its number without its fraction. -/
theorem trunc_of_integerPart? {x : Float} {n : ℤ} (h : integerPart? x = some n) :
    trunc x = ((n : WithTop ℤ) : WithBot (WithTop ℤ)) := by
  unfold integerPart? at h
  unfold trunc
  cases hx : x.toModel.unpack with
  | notANumber | infinity => rw [hx] at h; cases h
  | zero s => rw [hx] at h; cases h; rfl
  | finite sign m e hpos =>
      rw [hx] at h
      obtain rfl := Option.some.inj h
      dsimp only
      rw [truncRat_apply sign hpos]
      cases sign <;> rfl

/-- Where there is no integer part, a number is infinite. -/
theorem trunc_of_integerPart?_eq_none {x : Float} (hnan : x.isNaN = false)
    (h : integerPart? x = none) :
    trunc x = ⊥ ∧ x < 1 ∨ trunc x = (⊤ : WithTop ℤ) ∧ ¬ x < 1 := by
  have hlt : x < 1 ↔ x.toModel.unpack.lt (1 : Float).toModel.unpack = true :=
    decide_eq_true_iff
  unfold integerPart? at h
  rw [hlt]
  unfold trunc
  cases hx : x.toModel.unpack with
  | zero | finite => rw [hx] at h; cases h
  | notANumber => cases (congrArg UnpackedFloat.isNaN hx).symm.trans hnan
  | infinity sign =>
      cases sign with
      | negative => exact Or.inl ⟨rfl, rfl⟩
      | positive => exact Or.inr ⟨rfl, nofun⟩

end Recalc.Double
