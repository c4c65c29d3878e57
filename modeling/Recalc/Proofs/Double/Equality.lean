import Mathlib
import Recalc.Double

/-!
# Equality of doubles

Two doubles that are numbers are equal as numbers if they have the same bits, or if both are zeros,
one of which has a sign.
-/

namespace Recalc.Double

variable {x y : Float}

/-- One of the two zeros. -/
def IsZero (x : Float) : Prop := x = 0 ∨ x = -0

instance (x : Float) : Decidable (IsZero x) := inferInstanceAs (Decidable (_ ∨ _))

theorem ne_nan_of_isNaN (h : x.isNaN = false) : x ≠ Float.nan := by
  rwa [Float.isNaN_eq_decide_eq_nan, decide_eq_false_iff_not] at h

theorem IsZero.ne_nan (h : IsZero x) : x ≠ Float.nan := by
  rcases h with rfl | rfl
  · exact ne_nan_of_isNaN (by decide)
  · exact ne_nan_of_isNaN (by decide)

/-- Numbers are equal if they are the same double or both are zeros. -/
theorem beq_iff (hx : x.isNaN = false) : (x == y) = true ↔ x = y ∨ IsZero x ∧ IsZero y := by
  rw [Float.beq_iff_ne_nan_and_eq, and_iff_right (ne_nan_of_isNaN hx)]
  constructor
  · rintro ⟨-, rfl | ⟨rfl, rfl⟩ | ⟨rfl, rfl⟩⟩
    · exact Or.inl rfl
    · exact Or.inr ⟨Or.inl rfl, Or.inr rfl⟩
    · exact Or.inr ⟨Or.inr rfl, Or.inl rfl⟩
  · rintro (rfl | ⟨hx0, hy0⟩)
    · exact ⟨ne_nan_of_isNaN hx, Or.inl rfl⟩
    · refine ⟨hy0.ne_nan, ?_⟩
      rcases hx0 with rfl | rfl <;> rcases hy0 with rfl | rfl <;> simp

/-- The bits that are looked up in place of a number's. -/
theorem lookupBits_eq_iff (hx : x.isNaN = false) (hy : y.isNaN = false) :
    (if x == 0 then 0 else x.toBits) = (if y == 0 then 0 else y.toBits)
      ↔ x = y ∨ IsZero x ∧ IsZero y := by
  have hzero : ∀ z : Float, z.isNaN = false → ((z == 0) = true ↔ IsZero z) := fun z hz => by
    have h0 : IsZero 0 := Or.inl rfl
    rw [beq_iff hz, and_iff_left h0]
    exact or_iff_right_of_imp Or.inl
  have hbits : ∀ z : Float, ¬IsZero z → (0 : UInt64) ≠ z.toBits := fun z hz h =>
    hz (Or.inl (Float.toBits_inj.mp h.symm))
  simp only [hzero x hx, hzero y hy]
  by_cases hx0 : IsZero x <;> by_cases hy0 : IsZero y
  · simp [hx0, hy0]
  · rw [if_pos hx0, if_neg hy0]
    exact iff_of_false (hbits y hy0) fun h => h.elim (fun h => hy0 (h ▸ hx0)) fun h => hy0 h.2
  · rw [if_neg hx0, if_pos hy0]
    exact iff_of_false (hbits x hx0).symm fun h =>
      h.elim (fun h => hx0 (h ▸ hy0)) fun h => hx0 h.1
  · rw [if_neg hx0, if_neg hy0, or_iff_left fun h => hx0 h.1]
    exact Float.toBits_inj

end Recalc.Double
