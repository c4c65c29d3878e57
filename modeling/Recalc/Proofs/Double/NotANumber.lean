import Recalc.Double
import Recalc.Decimal.Reader

/-!
# Doubles that are numbers

Besides numbers and infinities there is a double that is neither. No numeral denotes it, no integer
is rounded to it, and neither a change of sign nor a division by a number other than zero gives it.
-/

namespace Recalc.Double

open Float.Model

/-! ## Packing -/

theorem isNaN_dite {p : Prop} [Decidable p] {f : p → UnpackedFloat} {g : ¬p → UnpackedFloat}
    (hf : ∀ h, (f h).isNaN = false) (hg : ∀ h, (g h).isNaN = false) :
    (dite p f g).isNaN = false := by
  by_cases h : p
  · rw [dif_pos h]
    exact hf h
  · rw [dif_neg h]
    exact hg h

theorem isNaN_ite {p : Prop} [Decidable p] {f g : UnpackedFloat} (hf : f.isNaN = false)
    (hg : g.isNaN = false) : (ite p f g).isNaN = false :=
  isNaN_dite (fun _ => hf) fun _ => hg

theorem isNaN_unpack_iff (bits : BitVec Format.binary64.numBits) :
    (UnpackedFloat.unpack .binary64 bits).isNaN = true ↔
      UnpackedFloat.unpackExponent bits = -1#_ ∧ UnpackedFloat.unpackMantissa bits ≠ 0#_ := by
  unfold UnpackedFloat.unpack
  dsimp only
  by_cases hexponent : UnpackedFloat.unpackExponent bits = -1#_
  · rw [if_pos hexponent]
    by_cases hmantissa : UnpackedFloat.unpackMantissa bits = 0#_
    · rw [if_pos hmantissa]
      exact iff_of_false Bool.false_ne_true fun h => h.2 hmantissa
    · rw [if_neg hmantissa]
      exact iff_of_true rfl ⟨hexponent, hmantissa⟩
  · rw [if_neg hexponent]
    refine iff_of_false ?_ fun h => hexponent h.1
    by_cases hzero : UnpackedFloat.unpackExponent bits = 0#_
    · rw [if_pos hzero]
      exact Bool.eq_false_iff.mp (isNaN_dite (fun _ => rfl) fun _ => rfl)
    · rw [if_neg hzero]
      exact Bool.false_ne_true

theorem isNaN_packedInfinity (sign : UnpackedFloat.Sign) :
    (UnpackedFloat.unpack .binary64 (UnpackedFloat.packedInfinity .binary64 sign)).isNaN
      = false := by
  cases sign <;> decide

/-- Packing makes nothing else of what is a number, and no number of what is none. -/
theorem isNaN_unpack_pack (f : UnpackedFloat) :
    (UnpackedFloat.unpack .binary64 (UnpackedFloat.pack .binary64 f)).isNaN = f.isNaN := by
  cases f with
  | notANumber => decide
  | infinity sign => exact isNaN_packedInfinity sign
  | zero sign => cases sign <;> decide
  | finite sign mantissa exponent hpos =>
      change _ = false
      unfold UnpackedFloat.pack
      dsimp only
      split
      · exact isNaN_packedInfinity sign
      · next hbiased =>
          refine Bool.eq_false_iff.2 fun hnan => ?_
          rw [isNaN_unpack_iff] at hnan
          split at hnan
          · have hexponent := hnan.1
            have hall : (-BitVec.ofNat Format.binary64.exponentBits 1).toNat = 2 ^ 11 - 1 := rfl
            rw [UnpackedFloat.unpackExponent_packComponents, ← BitVec.toNat_inj,
              BitVec.toNat_ofNat, hall, Nat.mod_eq_of_lt (by omega)] at hexponent
            omega
          · have hexponent := hnan.1
            rw [UnpackedFloat.unpackExponent_packComponents] at hexponent
            exact absurd hexponent (by decide)

theorem isNaN_ofModel_pack (f : UnpackedFloat) : (Float.ofModel (pack f)).isNaN = f.isNaN :=
  isNaN_unpack_pack f

/-! ## Arithmetic -/

section Arithmetic

variable {x y : Float}

theorem isNaN_of_isFinite (h : x.isFinite = true) : x.isNaN = false := by
  change x.toModel.unpack.isFinite = true at h
  change x.toModel.unpack.isNaN = false
  cases hx : x.toModel.unpack with
  | notANumber =>
      rw [hx] at h
      cases h
  | _ => rfl

theorem isNaN_neg (x : Float) : (-x).isNaN = x.isNaN := by
  refine (isNaN_ofModel_pack x.toModel.unpack.neg).trans ?_
  change _ = x.toModel.unpack.isNaN
  cases x.toModel.unpack <;> rfl

theorem isNaN_roundWithAccuracy (sign : UnpackedFloat.Sign) (mantissa : Nat) (exponent : Int)
    (accuracy : UnpackedFloat.Accuracy) :
    (UnpackedFloat.roundWithAccuracy .binary64 sign mantissa exponent accuracy).isNaN = false := by
  unfold UnpackedFloat.roundWithAccuracy
  exact isNaN_dite (fun _ => rfl) fun _ => rfl

/-- Finite and other than zero. -/
def isScale (x : Float) : Bool :=
  match x.toModel.unpack with
  | .finite .. => true
  | _ => false

theorem isNaN_unpack_div {f g : UnpackedFloat} (hf : f.isNaN = false)
    (hg : ∃ sign mantissa exponent hpos, g = .finite sign mantissa exponent hpos) :
    (UnpackedFloat.div .binary64 f g).isNaN = false := by
  obtain ⟨sign, mantissa, exponent, hpos, rfl⟩ := hg
  cases f with
  | notANumber => cases hf
  | infinity | zero => rfl
  | finite => exact isNaN_roundWithAccuracy _ _ _ _

theorem isNaN_unpack_mul {f g : UnpackedFloat} (hf : f.isNaN = false)
    (hg : ∃ sign mantissa exponent hpos, g = .finite sign mantissa exponent hpos) :
    (UnpackedFloat.mul .binary64 f g).isNaN = false := by
  obtain ⟨sign, mantissa, exponent, hpos, rfl⟩ := hg
  cases f with
  | notANumber => cases hf
  | infinity | zero => rfl
  | finite => exact isNaN_roundWithAccuracy _ _ _ _

theorem exists_finite_of_isScale (h : isScale y = true) :
    ∃ sign mantissa exponent hpos, y.toModel.unpack = .finite sign mantissa exponent hpos := by
  unfold isScale at h
  cases hy : y.toModel.unpack with
  | finite => exact ⟨_, _, _, _, rfl⟩
  | _ =>
      rw [hy] at h
      cases h

theorem isNaN_div (hx : x.isNaN = false) (hy : isScale y = true) : (x / y).isNaN = false :=
  (isNaN_ofModel_pack _).trans (isNaN_unpack_div hx (exists_finite_of_isScale hy))

theorem isNaN_mul (hx : x.isNaN = false) (hy : isScale y = true) : (x * y).isNaN = false :=
  (isNaN_ofModel_pack _).trans (isNaN_unpack_mul hx (exists_finite_of_isScale hy))

end Arithmetic

/-! ## Conversion -/

theorem isNaN_unpack_ofInt (n : Int) : (UnpackedFloat.ofInt .binary64 n).isNaN = false := by
  unfold UnpackedFloat.ofInt UnpackedFloat.normalize
  split
  · exact isNaN_roundWithAccuracy _ _ _ _
  · rfl
  · exact isNaN_roundWithAccuracy _ _ _ _

theorem isNaN_toFloat (n : UInt64) : n.toFloat.isNaN = false :=
  (isNaN_ofModel_pack _).trans (isNaN_unpack_ofInt _)

theorem isNaN_ofNat (n : Nat) : (ofNat n).isNaN = false := isNaN_toFloat _

theorem isNaN_unpack_ofScientific (m : Nat) (e : Int) :
    (UnpackedFloat.ofScientific .binary64 m e).isNaN = false := by
  unfold UnpackedFloat.ofScientific
  refine isNaN_dite (fun _ => rfl) fun _ => isNaN_ite rfl (isNaN_ite rfl (isNaN_ite ?_ ?_))
  · exact isNaN_unpack_mul rfl ⟨_, _, _, _, rfl⟩
  · exact isNaN_unpack_div rfl ⟨_, _, _, _, rfl⟩

theorem isScale_powersOfTen :
    ∀ x ∈ Float.exactlyRepresentablePowersOfTen, isScale x = true := by decide

theorem isNaN_ofScientific (m : Nat) (negative : Bool) (e : Nat) :
    (Float.ofScientific m negative e).isNaN = false := by
  unfold Float.ofScientific
  split
  · next h =>
      have hsize : e < Float.exactlyRepresentablePowersOfTen.size := by
        simp [Float.exactlyRepresentablePowersOfTen]
        omega
      have hscale := isScale_powersOfTen _ (Array.getElem_mem hsize)
      dsimp only
      split
      · exact isNaN_div (isNaN_toFloat _) hscale
      · exact isNaN_mul (isNaN_toFloat _) hscale
  · exact (isNaN_ofModel_pack _).trans (isNaN_unpack_ofScientific _ _)

theorem isNaN_ofInt (n : Int) : (Float.ofInt n).isNaN = false := by
  cases n with
  | ofNat n => exact isNaN_ofScientific n false 0
  | negSucc n => exact (isNaN_neg _).trans (isNaN_ofScientific n.succ false 0)

/-- A hundredth of a number is a number. -/
theorem isNaN_div_hundred {x : Float} (hx : x.isNaN = false) : (x / 100).isNaN = false :=
  isNaN_div hx (by decide)

end Recalc.Double

namespace Recalc.Decimal

theorem isNaN_nearest (coefficient : Nat) (exponent : Int) :
    (nearest coefficient exponent).isNaN = false := by
  unfold nearest
  dsimp only
  split
  · exact Double.isNaN_ofScientific 0 false 0
  split
  · decide
  · exact Double.isNaN_ofScientific _ _ _

/-- No numeral denotes what is not a number. -/
theorem isNaN_of_read? {s : List Char} {x : Float} (h : read? s = some x) : x.isNaN = false := by
  obtain ⟨n, -, rfl⟩ := Option.map_eq_some_iff.1 h
  unfold Numeral.toFloat
  dsimp only
  split
  · exact (Double.isNaN_neg _).trans (isNaN_nearest _ _)
  · exact isNaN_nearest _ _

theorem isNaN_of_readFinite? {s : List Char} {x : Float} (h : readFinite? s = some x) :
    x.isNaN = false := Double.isNaN_of_isFinite (Option.filter_eq_some_iff.1 h).2

end Recalc.Decimal
