import Mathlib.Algebra.Group.Nat.Defs
import Recalc.Proofs.Double.NotANumber

/-!
# Doubles that are finite

A double is finite if its exponent is not too large. Rounding does not raise an exponent above a
bound that leaves room for the digits, so a hundredth of a finite double is finite, and so is the
double nearest to a whole number of the machine.
-/

namespace Recalc.Double

open Float.Model

/-- Zero, or a finite number with an exponent of at most `k`. -/
def Within (k : Int) : UnpackedFloat → Prop
  | .zero _ => True
  | .finite _ _ exponent _ => exponent ≤ k
  | .infinity _ | .notANumber => False

/-- The largest exponent of a double. -/
def largestExponent : Int := 971

/-- The smallest exponent of a double. -/
def smallestExponent : Int := -1074

variable {x y : Float} {f g : UnpackedFloat} {sign : UnpackedFloat.Sign} {mantissa : Nat}
  {exponent k l : Int}

theorem Within.isFinite (h : Within k f) : f.isFinite = true := by
  cases f with
  | zero | finite => rfl
  | infinity | notANumber => exact h.elim

theorem within_dite {p : Prop} [Decidable p] {f : p → UnpackedFloat} {g : ¬p → UnpackedFloat}
    (hf : ∀ h, Within k (f h)) (hg : ∀ h, Within k (g h)) : Within k (dite p f g) := by
  by_cases h : p
  · rw [dif_pos h]
    exact hf h
  · rw [dif_neg h]
    exact hg h

/-! ## Packing -/

theorem exponentBias_binary64 : Format.binary64.exponentBias = 1023 := by decide

theorem toNat_ones : (-BitVec.ofNat Format.binary64.exponentBits 1).toNat = 2047 := by decide

/-- Bits whose exponent is not made of ones are those of a finite double, with that exponent. -/
theorem within_unpack {bits : BitVec Format.binary64.numBits} (hk : smallestExponent ≤ k)
    (hones : UnpackedFloat.unpackExponent bits ≠ -1#_)
    (hbits : ((UnpackedFloat.unpackExponent bits).toNat : Int) ≤ k + 1075) :
    Within k (UnpackedFloat.unpack .binary64 bits) := by
  unfold UnpackedFloat.unpack
  dsimp only
  rw [if_neg hones]
  by_cases hzero : UnpackedFloat.unpackExponent bits = 0#_
  · rw [if_pos hzero]
    refine within_dite (fun _ => trivial) fun _ => ?_
    rw [hzero]
    exact hk
  · rw [if_neg hzero]
    change _ - _ ≤ k
    rw [exponentBias_binary64]
    omega

/-- A finite double has an exponent of at most the largest. -/
theorem within_unpack_of_isFinite {bits : BitVec Format.binary64.numBits}
    (h : (UnpackedFloat.unpack .binary64 bits).isFinite = true) :
    Within largestExponent (UnpackedFloat.unpack .binary64 bits) := by
  have hones : UnpackedFloat.unpackExponent bits ≠ -1#_ := by
    intro hones
    unfold UnpackedFloat.unpack at h
    dsimp only at h
    rw [if_pos hones] at h
    split at h <;> cases h
  have hne : (UnpackedFloat.unpackExponent bits).toNat ≠ 2047 := fun heq =>
    hones (BitVec.eq_of_toNat_eq (heq.trans toNat_ones.symm))
  have hlt : (UnpackedFloat.unpackExponent bits).toNat < 2048 := BitVec.isLt _
  refine within_unpack (by decide) hones ?_
  change _ ≤ (971 : Int) + 1075
  omega

theorem within_of_isFinite (h : x.isFinite = true) : Within largestExponent x.toModel.unpack :=
  within_unpack_of_isFinite h

/-- Packing keeps a number whose exponent is not too large. -/
theorem within_unpack_pack (hlow : smallestExponent ≤ k) (hhigh : k ≤ largestExponent)
    (h : Within k f) : Within k (UnpackedFloat.unpack .binary64 (UnpackedFloat.pack .binary64 f)) := by
  cases f with
  | notANumber | infinity => exact h.elim
  | zero sign => cases sign <;> trivial
  | finite sign mantissa exponent hpos =>
      change exponent ≤ k at h
      change k ≤ 971 at hhigh
      unfold UnpackedFloat.pack
      dsimp only
      rw [exponentBias_binary64, if_neg (by omega)]
      have hsmall : (exponent + (1023 : Nat) + (52 : Nat)).toNat < 2047 := by omega
      split
      · have hbits : (UnpackedFloat.unpackExponent (UnpackedFloat.packComponents .binary64 sign
            (BitVec.ofNat _ (exponent + (1023 : Nat) + (52 : Nat)).toNat)
            (BitVec.ofNat _ mantissa))).toNat = (exponent + (1023 : Nat) + (52 : Nat)).toNat := by
          rw [UnpackedFloat.unpackExponent_packComponents, BitVec.toNat_ofNat]
          exact Nat.mod_eq_of_lt (by change _ < 2048; omega)
        refine within_unpack hlow (fun hones => ?_) ?_
        · have htoNat := congrArg BitVec.toNat hones
          rw [hbits, toNat_ones] at htoNat
          omega
        · rw [hbits]
          change -1074 ≤ k at hlow
          omega
      · refine within_unpack hlow ?_ ?_
        · rw [UnpackedFloat.unpackExponent_packComponents]
          decide
        · rw [UnpackedFloat.unpackExponent_packComponents]
          change -1074 ≤ k at hlow
          change (0 : Int) ≤ _
          omega

theorem isFinite_ofModel_pack (h : Within largestExponent f) :
    (Float.ofModel (pack f)).isFinite = true :=
  (within_unpack_pack (by decide) (Int.le_refl _) h).isFinite

/-- The mantissa of a finite double has a digit less where the exponent is the smallest. -/
theorem unpack_eq_finite {bits : BitVec Format.binary64.numBits} {hpos : 0 < mantissa}
    (h : UnpackedFloat.unpack .binary64 bits = .finite sign mantissa exponent hpos) :
    mantissa < 2 ^ 52 ∧ exponent = smallestExponent
      ∨ 2 ^ 52 ≤ mantissa ∧ mantissa < 2 ^ 53 ∧ smallestExponent ≤ exponent := by
  unfold UnpackedFloat.unpack at h
  dsimp only at h
  by_cases hones : UnpackedFloat.unpackExponent bits = -1#_
  · rw [if_pos hones] at h
    by_cases hmantissa : UnpackedFloat.unpackMantissa bits = 0#_
    · rw [if_pos hmantissa] at h
      cases h
    · rw [if_neg hmantissa] at h
      cases h
  rw [if_neg hones] at h
  by_cases hzero : UnpackedFloat.unpackExponent bits = 0#_
  · rw [if_pos hzero] at h
    by_cases hmantissa : UnpackedFloat.unpackMantissa bits = 0#_
    · rw [dif_pos hmantissa] at h
      cases h
    · rw [dif_neg hmantissa] at h
      obtain ⟨-, rfl, rfl⟩ := UnpackedFloat.finite.inj h
      rw [hzero]
      exact Or.inl ⟨BitVec.isLt _, rfl⟩
  · rw [if_neg hzero] at h
    obtain ⟨-, rfl, rfl⟩ := UnpackedFloat.finite.inj h
    have hne : (UnpackedFloat.unpackExponent bits).toNat ≠ 0 := fun h0 =>
      hzero (BitVec.eq_of_toNat_eq h0)
    refine Or.inr ⟨?_, BitVec.isLt _, ?_⟩
    · rw [BitVec.toNat_append, Nat.or_comm]
      exact Nat.le_trans (by decide) Nat.right_le_or
    · change (-1074 : Int) ≤ _ - _
      rw [exponentBias_binary64]
      omega

/-- The digits of a double. -/
theorem lt_of_unpack {bits : BitVec Format.binary64.numBits} {hpos : 0 < mantissa}
    (h : UnpackedFloat.unpack .binary64 bits = .finite sign mantissa exponent hpos) :
    mantissa < 2 ^ 53 := by
  rcases unpack_eq_finite h with ⟨hlt, -⟩ | ⟨-, hlt, -⟩
  · exact Nat.lt_trans hlt (by decide)
  · exact hlt

/-! ## Rounding -/

theorem totalExponent_le {a : Nat} (h : mantissa < 2 ^ a) (hpos : 0 < a) :
    totalExponent mantissa exponent ≤ a + exponent := by
  have hlog : mantissa.log2 < a := by
    by_cases hzero : mantissa = 0
    · rwa [hzero]
    · exact (Nat.log2_lt hzero).mpr h
  change (mantissa.log2 : Int) + 1 + exponent ≤ _
  omega

theorem targetExponent_binary64 (t : Int) :
    Format.binary64.targetExponent t = max (t - 53) smallestExponent := rfl

theorem mantissa_shiftRight (em : UnpackedFloat.ExtendedMantissa) (n : Nat) :
    (em >>> n).mantissa = em.mantissa / 2 ^ n := by
  induction n with
  | zero => exact (Nat.div_one _).symm
  | succ n ih =>
      change (em >>> n).mantissa / 2 = _
      rw [ih, Nat.div_div_eq_div_mul, Nat.pow_succ]

theorem roundedMantissa_le (em : UnpackedFloat.ExtendedMantissa) :
    em.roundedMantissa ≤ em.mantissa + 1 := by
  have hodd : em.mantissa % 2 ≤ 1 := by omega
  rcases em with ⟨mantissa, _ | _, _ | _⟩
  · exact Nat.le_succ _
  · exact Nat.le_succ _
  · exact Nat.add_le_add_left hodd _
  · exact Nat.le_refl _

theorem mantissa_ofMantissaAndAccuracy (accuracy : UnpackedFloat.Accuracy) :
    (UnpackedFloat.ExtendedMantissa.ofMantissaAndAccuracy mantissa accuracy).mantissa
      = mantissa := by
  rcases accuracy with _ | _ | _ | _ <;> rfl

/-- Shifting raises the exponent to the target and no further. -/
theorem shiftToTargetExponent_le (hexponent : exponent ≤ k) (hk : smallestExponent ≤ k)
    (htotal : totalExponent mantissa exponent ≤ k + 53) (accuracy : UnpackedFloat.Accuracy) :
    (UnpackedFloat.shiftToTargetExponent .binary64 mantissa exponent accuracy).2 ≤ k := by
  change exponent + ((Format.binary64.targetExponent (totalExponent mantissa exponent)
    - exponent).toNat : Int) ≤ k
  rw [targetExponent_binary64]
  omega

theorem roundedMantissa_shift_le (mantissa : Nat) (exponent : Int)
    (accuracy : UnpackedFloat.Accuracy) :
    let shifted := UnpackedFloat.shiftToTargetExponent .binary64 mantissa exponent accuracy
    totalExponent shifted.1.roundedMantissa shifted.2
      ≤ max (totalExponent mantissa exponent) shifted.2 + 1 := by
  intro shifted
  let amount := (Format.binary64.targetExponent (totalExponent mantissa exponent) - exponent).toNat
  have hmantissa : shifted.1.mantissa = mantissa / 2 ^ amount :=
    (mantissa_shiftRight _ amount).trans (by rw [mantissa_ofMantissaAndAccuracy])
  have hexponent : shifted.2 = exponent + amount := rfl
  have hlt : mantissa / 2 ^ amount < 2 ^ (mantissa.log2 + 1 - amount) := by
    refine Nat.div_lt_of_lt_mul (Nat.lt_of_lt_of_le Nat.lt_log2_self ?_)
    rw [← Nat.pow_add]
    exact Nat.pow_le_pow_right (by decide) (by omega)
  have hrounded : shifted.1.roundedMantissa < 2 ^ (mantissa.log2 + 1 - amount + 1) := by
    have hle := roundedMantissa_le shifted.1
    rw [hmantissa] at hle
    rw [Nat.pow_succ]
    omega
  refine Int.le_trans (totalExponent_le hrounded (Nat.succ_pos _)) ?_
  rw [hexponent]
  change _ ≤ max ((mantissa.log2 : Int) + 1 + exponent) _ + 1
  omega

/-- Rounding keeps to an exponent that leaves room for one digit more than a double has. -/
theorem within_roundWithAccuracy (hk : smallestExponent ≤ k) (hexponent : exponent ≤ k)
    (htotal : totalExponent mantissa exponent ≤ k + 52) (accuracy : UnpackedFloat.Accuracy) :
    Within k (UnpackedFloat.roundWithAccuracy .binary64 sign mantissa exponent accuracy) := by
  have hshift : (UnpackedFloat.shiftToTargetExponent .binary64 mantissa exponent accuracy).2 ≤ k :=
    shiftToTargetExponent_le hexponent hk (by omega) accuracy
  have hrounded := roundedMantissa_shift_le mantissa exponent accuracy
  unfold UnpackedFloat.roundWithAccuracy
  generalize UnpackedFloat.shiftToTargetExponent .binary64 mantissa exponent accuracy = shifted
    at hshift hrounded
  refine within_dite (fun _ => trivial) fun _ => ?_
  exact shiftToTargetExponent_le hshift hk (by omega) .exact

/-! ## Operations -/

theorem isFinite_neg (h : x.isFinite = true) : (-x).isFinite = true := by
  refine isFinite_ofModel_pack (f := x.toModel.unpack.neg) ?_
  have hx := within_of_isFinite h
  cases hf : x.toModel.unpack with
  | _ => rw [hf] at hx; exact hx

/-- The digits of a product are at most those of its factors together. -/
theorem within_mul {j : Int} (hx : Within j x.toModel.unpack) (hy : Within l y.toModel.unpack)
    (hk : smallestExponent ≤ k) (hsum : j + l + 54 ≤ k) :
    Within k (UnpackedFloat.mul .binary64 x.toModel.unpack y.toModel.unpack) := by
  cases hf : x.toModel.unpack with
  | infinity | notANumber => rw [hf] at hx; exact hx.elim
  | zero =>
      cases hg : y.toModel.unpack with
      | infinity | notANumber => rw [hg] at hy; exact hy.elim
      | zero | finite => trivial
  | finite sign mantissa exponent hpos =>
      cases hg : y.toModel.unpack with
      | infinity | notANumber => rw [hg] at hy; exact hy.elim
      | zero => trivial
      | finite sign' mantissa' exponent' hpos' =>
          rw [hf] at hx
          rw [hg] at hy
          have hproduct : mantissa * mantissa' < 2 ^ 53 * 2 ^ 53 :=
            Nat.mul_lt_mul'' (lt_of_unpack hf) (lt_of_unpack hg)
          rw [← Nat.pow_add] at hproduct
          change exponent ≤ j at hx
          change exponent' ≤ l at hy
          exact within_roundWithAccuracy hk (by omega)
            (Int.le_trans (totalExponent_le hproduct (by decide)) (by omega)) _

/-- The digits of a quotient are at most one more than those by which the dividend exceeds a divisor
with all of its digits. -/
theorem within_div {j : Int} (hx : Within j x.toModel.unpack) {hpos : 0 < mantissa}
    (hy : y.toModel.unpack = .finite sign mantissa exponent hpos) (hmantissa : 2 ^ 52 ≤ mantissa)
    (hk : smallestExponent ≤ k) (hquotient : j - exponent ≤ k + 51) :
    Within k (UnpackedFloat.div .binary64 x.toModel.unpack y.toModel.unpack) := by
  rw [hy]
  cases hf : x.toModel.unpack with
  | infinity | notANumber => rw [hf] at hx; exact hx.elim
  | zero => trivial
  | finite sign' mantissa' exponent' hpos' =>
      rw [hf] at hx
      change exponent' ≤ j at hx
      have hdividend := lt_of_unpack hf
      have hdigits : 52 ≤ mantissa.log2 := (Nat.le_log2 (Nat.ne_of_gt hpos)).mpr hmantissa
      have htotal : totalExponent mantissa' exponent' ≤ 53 + exponent' :=
        totalExponent_le hdividend (by decide)
      have htotal' : 53 + exponent ≤ totalExponent mantissa exponent := by
        change _ ≤ (mantissa.log2 : Int) + 1 + exponent
        omega
      let target := min (exponent' - exponent) (Format.binary64.targetExponent
        (totalExponent mantissa' exponent' - totalExponent mantissa exponent))
      have htarget : target ≤ k := by
        refine Int.le_trans (Int.min_le_right _ _) ?_
        rw [targetExponent_binary64]
        omega
      let shift := (exponent' - exponent - target).toNat
      have hshift : (shift : Int) = exponent' - exponent - target :=
        Int.toNat_of_nonneg (Int.sub_nonneg.mpr (Int.min_le_left _ _))
      have hlt : mantissa' <<< shift / mantissa < 2 ^ (shift + 1) := by
        refine Nat.div_lt_of_lt_mul ?_
        calc mantissa' <<< shift = mantissa' * 2 ^ shift := Nat.shiftLeft_eq _ _
          _ < 2 ^ 53 * 2 ^ shift := Nat.mul_lt_mul_of_pos_right hdividend (Nat.two_pow_pos shift)
          _ = 2 ^ 52 * 2 ^ (shift + 1) := by rw [Nat.pow_succ 2 shift]; omega
          _ ≤ mantissa * 2 ^ (shift + 1) := Nat.mul_le_mul_right _ hmantissa
      refine within_roundWithAccuracy hk htarget ?_ _
      exact Int.le_trans (totalExponent_le hlt (Nat.succ_pos _)) (by push_cast; omega)

theorem within_round (a : Nat) (hmantissa : mantissa < 2 ^ a) (ha : 0 < a)
    (hk : smallestExponent ≤ k) (hexponent : exponent ≤ k) (htotal : a + exponent ≤ k + 52) :
    Within k (UnpackedFloat.round .binary64 sign mantissa exponent) := by
  let shift := (exponent
    - Format.binary64.targetExponent (totalExponent mantissa exponent)).toNat
  have hlt : mantissa <<< shift < 2 ^ (a + shift) := by
    rw [Nat.shiftLeft_eq, Nat.pow_add]
    exact Nat.mul_lt_mul_of_pos_right hmantissa (Nat.two_pow_pos shift)
  have hshifted : exponent - shift ≤ k := by omega
  refine within_roundWithAccuracy hk hshifted ?_ _
  exact Int.le_trans (totalExponent_le hlt (by omega)) (by push_cast; omega)

theorem within_ofInt {n : Int} (hn : n.natAbs < 2 ^ 64) :
    Within 64 (UnpackedFloat.ofInt .binary64 n) := by
  unfold UnpackedFloat.ofInt UnpackedFloat.normalize
  split
  · exact within_round 64 (by omega) (by decide) (by decide) (by decide) (by decide)
  · trivial
  · exact within_round 64 (by omega) (by decide) (by decide) (by decide) (by decide)

/-! ## Results -/

/-- A hundredth of a finite number is finite. -/
theorem isFinite_div_hundred (h : x.isFinite = true) : (x / 100).isFinite = true := by
  have hhundred : (100 : Float).toModel.unpack = .finite .positive (100 * 2 ^ 46) (-46) (by decide) :=
    rfl
  exact isFinite_ofModel_pack
    (within_div (within_of_isFinite h) hhundred (by decide) (by decide) (by decide))

theorem within_toFloat (n : UInt64) : Within 64 n.toFloat.toModel.unpack :=
  within_unpack_pack (by decide) (by decide) (within_ofInt (by have := n.toNat_lt; omega))

theorem isFinite_ofNat (n : Nat) : (ofNat n).isFinite = true := (within_toFloat _).isFinite

/-- The double that equals an integer of up to 53 bits is finite. -/
theorem isFinite_ofInt {n : Int} (h : n.natAbs < 2 ^ 53) : (Float.ofInt n).isFinite = true := by
  have hnat : ∀ m : Nat, m < 2 ^ 53 → (Float.ofScientific m false 0).isFinite = true := by
    intro m hm
    rw [Float.ofScientific, dif_pos ⟨hm, Nat.zero_le _⟩]
    have hone : (Float.ofBits 0x3FF0000000000000).toModel.unpack
        = .finite .positive (2 ^ 52) (-52) (by decide) := rfl
    have hwithin : Within (-52) (Float.ofBits 0x3FF0000000000000).toModel.unpack := by
      rw [hone]
      exact Int.le_refl _
    exact isFinite_ofModel_pack (within_mul (within_toFloat _) hwithin (by decide) (by decide))
  cases n with
  | ofNat m => exact hnat m h
  | negSucc m => exact isFinite_neg (hnat m.succ h)

end Recalc.Double
