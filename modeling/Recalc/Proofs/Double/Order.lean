import Mathlib
import Recalc.Proofs.Double.Finiteness

/-!
# The order of doubles

A double that is a number has a place on the line of the rational numbers, at either end of which
there is an infinity. Doubles are compared as their places are, and one that is no number is less
than none and greater than none.
-/

namespace Recalc.Double

open Float.Model

/-- The rational numbers, with an infinity at either end. -/
abbrev Extended : Type := WithBot (WithTop ℚ)

/-- A rational number among them. -/
def Extended.ofRat (q : ℚ) : Extended := ((q : WithTop ℚ) : WithBot (WithTop ℚ))

theorem Extended.ofRat_inj {p q : ℚ} : ofRat p = ofRat q ↔ p = q := by
  rw [ofRat, ofRat, WithBot.coe_inj, WithTop.coe_inj]

theorem Extended.ofRat_lt_ofRat {p q : ℚ} : ofRat p < ofRat q ↔ p < q := by
  rw [ofRat, ofRat, WithBot.coe_lt_coe, WithTop.coe_lt_coe]

/-- The rational number that is given by a sign, a mantissa and an exponent. -/
def rational? : UnpackedFloat → Option ℚ
  | .zero _ => some 0
  | .finite .positive mantissa exponent _ => some (mantissa * 2 ^ exponent)
  | .finite .negative mantissa exponent _ => some (-(mantissa * 2 ^ exponent))
  | .infinity _ | .notANumber => none

/-- The place of a number on the line. -/
def placeOf : UnpackedFloat → Option Extended
  | .infinity .positive => some (⊤ : WithTop ℚ)
  | .infinity .negative => some ⊥
  | f => (rational? f).map Extended.ofRat

/-- The place on the line of a double that is a number. -/
def position? (x : Float) : Option Extended := placeOf x.toModel.unpack

/-! ## Mantissas and exponents -/

/-- The digits of a double's mantissa are all in use, unless the exponent is the smallest. -/
structure Canonical (mantissa : Nat) (exponent : Int) : Prop where
  lt : mantissa < 2 ^ 53
  le_exponent : smallestExponent ≤ exponent
  full : exponent ≠ smallestExponent → 2 ^ 52 ≤ mantissa

section

variable {m n : Nat} {e k : Int}

theorem cast_mul_zpow_pos (e : ℤ) (hm : 0 < m) : (0 : ℚ) < m * 2 ^ e :=
  mul_pos (Nat.cast_pos.mpr hm) (zpow_pos two_pos e)

/-- With all digits in use, the greater exponent makes the greater number. -/
theorem Canonical.lt_of_exponent_lt (hm : Canonical m e) (hn : Canonical n k) (h : e < k) :
    (m : ℚ) * 2 ^ e < n * 2 ^ k := by
  have hm' : (m : ℚ) < 2 ^ (53 : ℤ) := by exact_mod_cast hm.lt
  have hn' : (2 : ℚ) ^ (52 : ℤ) ≤ n := by
    exact_mod_cast hn.full (by have := hm.le_exponent; omega)
  calc (m : ℚ) * 2 ^ e < 2 ^ (53 : ℤ) * 2 ^ e :=
        mul_lt_mul_of_pos_right hm' (zpow_pos two_pos e)
    _ = 2 ^ (52 : ℤ) * 2 ^ (e + 1) := by
        rw [← zpow_add₀ two_ne_zero, ← zpow_add₀ two_ne_zero]
        congr 1
        omega
    _ ≤ n * 2 ^ k := by
        gcongr
        · exact one_le_two
        · exact h

/-- Exponents are compared first, and mantissas where these are equal. -/
theorem Canonical.compare_eq_lt_iff (hm : Canonical m e) (hn : Canonical n k) :
    (compare e k).then (compare m n) = .lt ↔ (m : ℚ) * 2 ^ e < n * 2 ^ k := by
  rcases lt_trichotomy e k with h | rfl | h
  · rw [compare_lt_iff_lt.mpr h]
    exact iff_of_true rfl (hm.lt_of_exponent_lt hn h)
  · rw [compare_eq_iff_eq.mpr rfl, mul_lt_mul_iff_left₀ (zpow_pos two_pos e), Nat.cast_lt]
    exact compare_lt_iff_lt
  · rw [compare_gt_iff_gt.mpr h]
    exact iff_of_false nofun (hn.lt_of_exponent_lt hm h).not_gt

end

/-! ## Comparison -/

section

variable {f g : UnpackedFloat} {u v : Extended} {q r : ℚ}

/-- A finite number has a canonical mantissa and exponent. -/
def IsCanonical : UnpackedFloat → Prop
  | .finite _ mantissa exponent _ => Canonical mantissa exponent
  | _ => True

theorem isCanonical_unpack (x : Float) : IsCanonical x.toModel.unpack := by
  cases hx : x.toModel.unpack with
  | infinity | notANumber | zero => trivial
  | finite sign mantissa exponent hpos =>
      rcases unpack_eq_finite hx with ⟨hlt, rfl⟩ | ⟨hle, hlt, hexponent⟩
      · exact ⟨hlt.trans (by decide), le_rfl, fun hne => absurd rfl hne⟩
      · exact ⟨hlt, hexponent, fun _ => hle⟩

theorem unpacked_lt_iff : f.lt g = true ↔ f.compare g = some .lt := beq_iff_eq

theorem lt_iff_of_rational? (hf : IsCanonical f) (hg : IsCanonical g) (hq : rational? f = some q)
    (hr : rational? g = some r) : f.lt g = true ↔ q < r := by
  rw [unpacked_lt_iff]
  cases f with
  | infinity | notANumber => cases hq
  | zero =>
      obtain rfl := Option.some.inj hq
      cases g with
      | infinity | notANumber => cases hr
      | zero =>
          obtain rfl := Option.some.inj hr
          exact iff_of_false nofun (lt_irrefl _)
      | finite sign n k hn =>
          cases sign <;> obtain rfl := Option.some.inj hr
          · exact iff_of_false nofun (neg_lt_zero.mpr (cast_mul_zpow_pos k hn)).not_gt
          · exact iff_of_true rfl (cast_mul_zpow_pos k hn)
  | finite sign m e hm =>
      cases g with
      | infinity | notANumber => cases hr
      | zero =>
          obtain rfl := Option.some.inj hr
          cases sign <;> obtain rfl := Option.some.inj hq
          · exact iff_of_true rfl (neg_lt_zero.mpr (cast_mul_zpow_pos e hm))
          · exact iff_of_false nofun (cast_mul_zpow_pos e hm).not_gt
      | finite sign' n k hn =>
          have hm' := cast_mul_zpow_pos e hm
          have hn' := cast_mul_zpow_pos k hn
          cases sign <;> cases sign' <;> obtain rfl := Option.some.inj hq <;>
            obtain rfl := Option.some.inj hr
          · rw [neg_lt_neg_iff, ← Canonical.compare_eq_lt_iff hg hf, UnpackedFloat.compare,
              Option.some_inj, Ordering.swap_then, ← Std.OrientedCmp.eq_swap,
              ← Std.OrientedCmp.eq_swap]
          · exact iff_of_true rfl ((neg_lt_zero.mpr hm').trans hn')
          · exact iff_of_false nofun ((neg_lt_zero.mpr hn').trans hm').not_gt
          · rw [← Canonical.compare_eq_lt_iff hf hg, UnpackedFloat.compare, Option.some_inj]

theorem placeOf_cases (h : placeOf f = some u) :
    f = .infinity .positive ∧ u = (⊤ : WithTop ℚ) ∨ f = .infinity .negative ∧ u = ⊥
      ∨ ∃ q : ℚ, rational? f = some q ∧ u = Extended.ofRat q := by
  cases f with
  | infinity sign =>
      cases sign with
      | positive => exact Or.inl ⟨rfl, (Option.some.inj h).symm⟩
      | negative => exact Or.inr (Or.inl ⟨rfl, (Option.some.inj h).symm⟩)
  | notANumber => cases h
  | zero => exact Or.inr (Or.inr ⟨0, rfl, (Option.some.inj h).symm⟩)
  | finite sign => cases sign <;> exact Or.inr (Or.inr ⟨_, rfl, (Option.some.inj h).symm⟩)

/-- Every rational number lies between the infinities. -/
theorem lt_infinity_of_rational? (h : rational? f = some q) :
    f.lt (.infinity .positive) = true ∧ UnpackedFloat.lt (.infinity .negative) f = true
      ∧ f.lt (.infinity .negative) = false ∧ UnpackedFloat.lt (.infinity .positive) f = false := by
  cases f with
  | infinity | notANumber => cases h
  | zero => exact ⟨rfl, rfl, rfl, rfl⟩
  | finite sign => cases sign <;> exact ⟨rfl, rfl, rfl, rfl⟩

theorem lt_iff_of_placeOf (hf : IsCanonical f) (hg : IsCanonical g) (hu : placeOf f = some u)
    (hv : placeOf g = some v) : f.lt g = true ↔ u < v := by
  have htop : ∀ q : ℚ, Extended.ofRat q < (⊤ : WithTop ℚ) := fun q =>
    WithBot.coe_lt_coe.mpr (WithTop.coe_lt_top q)
  rcases placeOf_cases hu with ⟨rfl, rfl⟩ | ⟨rfl, rfl⟩ | ⟨q, hq, rfl⟩
  · rcases placeOf_cases hv with ⟨rfl, rfl⟩ | ⟨rfl, rfl⟩ | ⟨r, hr, rfl⟩
    · exact iff_of_false (by decide) (lt_irrefl _)
    · exact iff_of_false (by decide) not_lt_bot
    · rw [(lt_infinity_of_rational? hr).2.2.2]
      exact iff_of_false nofun (htop r).not_gt
  · rcases placeOf_cases hv with ⟨rfl, rfl⟩ | ⟨rfl, rfl⟩ | ⟨r, hr, rfl⟩
    · exact iff_of_true (by decide) (WithBot.bot_lt_coe _)
    · exact iff_of_false (by decide) (lt_irrefl _)
    · exact iff_of_true (lt_infinity_of_rational? hr).2.1 (WithBot.bot_lt_coe _)
  · rcases placeOf_cases hv with ⟨rfl, rfl⟩ | ⟨rfl, rfl⟩ | ⟨r, hr, rfl⟩
    · exact iff_of_true (lt_infinity_of_rational? hq).1 (htop q)
    · rw [(lt_infinity_of_rational? hq).2.2.1]
      exact iff_of_false nofun not_lt_bot
    · rw [lt_iff_of_rational? hf hg hq hr, Extended.ofRat_lt_ofRat]

end

/-! ## Doubles -/

variable {x y : Float} {u v : Extended}

theorem float_lt_iff : x < y ↔ x.toModel.unpack.lt y.toModel.unpack = true := decide_eq_true_iff

/-- Numbers are compared as their places on the line. -/
theorem lt_iff (hx : position? x = some u) (hy : position? y = some v) : x < y ↔ u < v := by
  rw [float_lt_iff]
  exact lt_iff_of_placeOf (isCanonical_unpack x) (isCanonical_unpack y) hx hy

theorem exists_placeOf_iff {f : UnpackedFloat} : (∃ u, placeOf f = some u) ↔ f.isNaN = false := by
  cases f with
  | notANumber => exact iff_of_false nofun nofun
  | zero => exact iff_of_true ⟨_, rfl⟩ rfl
  | infinity sign | finite sign => cases sign <;> exact iff_of_true ⟨_, rfl⟩ rfl

theorem exists_position?_iff : (∃ u, position? x = some u) ↔ x.isNaN = false := exists_placeOf_iff

/-- Only numbers are less than others or greater. -/
theorem exists_positions_of_lt (h : x < y) :
    (∃ u, position? x = some u) ∧ ∃ v, position? y = some v := by
  rw [exists_position?_iff, exists_position?_iff]
  rw [float_lt_iff, unpacked_lt_iff] at h
  change x.toModel.unpack.isNaN = false ∧ y.toModel.unpack.isNaN = false
  cases hx : x.toModel.unpack with
  | notANumber => rw [hx] at h; cases h
  | _ =>
      cases hy : y.toModel.unpack with
      | notANumber => rw [hx, hy] at h; cases h
      | _ => exact ⟨rfl, rfl⟩

theorem not_lt_of_lt (h : x < y) : ¬ y < x := by
  obtain ⟨⟨u, hu⟩, v, hv⟩ := exists_positions_of_lt h
  rw [lt_iff hu hv] at h
  rw [lt_iff hv hu]
  exact h.not_gt

end Recalc.Double
