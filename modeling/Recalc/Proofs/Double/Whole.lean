import Recalc.Proofs.Double.Order
import Recalc.Proofs.Double.Truncation

/-!
# Exact whole numbers

A double has 53 binary digits, so every whole number that needs no more is a double, and two of them
are added without rounding where their sum needs no more either. A double is recognized as a whole
number by its place on the line.
-/

namespace Recalc.Double

open Float.Model

/-- A mantissa that uses all digits, and an exponent that is not too small. -/
structure Full (mantissa : Nat) (exponent : Int) : Prop where
  le : 2 ^ 52 ≤ mantissa
  lt : mantissa < 2 ^ 53
  le_exponent : smallestExponent ≤ exponent

section

variable {m n a b : Nat} {e k : Int} {sign : UnpackedFloat.Sign}

theorem log2_mul_two_pow (hm : 0 < m) (shift : Nat) : (m * 2 ^ shift).log2 = m.log2 + shift := by
  rw [Nat.log2_eq_iff (Nat.mul_pos hm (Nat.two_pow_pos shift)).ne', Nat.pow_add]
  constructor
  · exact Nat.mul_le_mul_right _ (Nat.log2_self_le hm.ne')
  · calc m * 2 ^ shift < 2 ^ (m.log2 + 1) * 2 ^ shift :=
          Nat.mul_lt_mul_of_pos_right Nat.lt_log2_self (Nat.two_pow_pos shift)
      _ = 2 ^ (m.log2 + shift + 1) := by rw [← Nat.pow_add, Nat.add_right_comm]

namespace Full

theorem pos (h : Full m e) : 0 < m := (Nat.two_pow_pos 52).trans_le h.le

theorem log2_eq (h : Full m e) : m.log2 = 52 := (Nat.log2_eq_iff h.pos.ne').mpr ⟨h.le, h.lt⟩

theorem targetExponent_eq (h : Full m e) (shift : Nat) :
    Format.binary64.targetExponent (totalExponent (m * 2 ^ shift) (e - shift)) = e := by
  have hexponent := h.le_exponent
  rw [targetExponent_binary64, totalExponent, log2_mul_two_pow h.pos, h.log2_eq]
  omega

end Full

/-! ## Rounding -/

/-- Zeros at the end of a mantissa are shifted out without a trace. -/
theorem shiftRight_zeros (m shift : Nat) :
    (⟨m * 2 ^ shift, false, false⟩ : UnpackedFloat.ExtendedMantissa) >>> shift
      = ⟨m, false, false⟩ := by
  induction shift generalizing m with
  | zero => exact congrArg (UnpackedFloat.ExtendedMantissa.mk · false false) (Nat.mul_one m)
  | succ shift ih =>
      have hdouble : m * 2 ^ (shift + 1) = 2 * m * 2 ^ shift := by
        rw [Nat.pow_succ, Nat.mul_comm 2 m, Nat.mul_assoc, Nat.mul_comm 2]
      calc (⟨m * 2 ^ (shift + 1), false, false⟩ : UnpackedFloat.ExtendedMantissa) >>> (shift + 1)
          = ((⟨2 * m * 2 ^ shift, false, false⟩ : UnpackedFloat.ExtendedMantissa)
              >>> shift).shiftRightOne := by
            rw [hdouble]
            rfl
        _ = ⟨m, false, false⟩ := by
            rw [ih]
            simp [UnpackedFloat.ExtendedMantissa.shiftRightOne]

theorem Full.shiftToTargetExponent_eq (h : Full m e) (shift : Nat) :
    UnpackedFloat.shiftToTargetExponent .binary64 (m * 2 ^ shift) (e - shift) .exact
      = (⟨m, false, false⟩, e) := by
  have hamount : (e - (e - shift)).toNat = shift := by omega
  rw [UnpackedFloat.shiftToTargetExponent, h.targetExponent_eq, UnpackedFloat.shiftToExponent,
    hamount]
  exact Prod.ext (shiftRight_zeros m shift) (Int.sub_add_cancel e shift)

theorem Full.roundWithAccuracy_eq (h : Full m e) (shift : Nat) :
    UnpackedFloat.roundWithAccuracy .binary64 sign (m * 2 ^ shift) (e - shift) .exact
      = .finite sign m e h.pos := by
  have hagain := h.shiftToTargetExponent_eq 0
  rw [Nat.pow_zero, Nat.mul_one, Nat.cast_zero, Int.sub_zero] at hagain
  have hrounded : (⟨m, false, false⟩ : UnpackedFloat.ExtendedMantissa).roundedMantissa = m := rfl
  rw [UnpackedFloat.roundWithAccuracy, h.shiftToTargetExponent_eq]
  dsimp only
  rw [hrounded, hagain]
  exact dif_neg h.pos.ne'

/-- Digits that are filled up at the end of a mantissa make up for a smaller exponent. -/
theorem cast_filled_mul_zpow (m : ℕ) (h : k ≤ e) :
    ((m * 2 ^ (e - k).toNat : ℕ) : ℚ) * 2 ^ k = m * 2 ^ e := by
  rw [Nat.cast_mul, Nat.cast_pow, Nat.cast_ofNat, mul_assoc, ← zpow_natCast,
    ← zpow_add₀ two_ne_zero, Int.toNat_of_nonneg (Int.sub_nonneg.mpr h), Int.sub_add_cancel]

/-- A number that a full mantissa can stand for is not changed by rounding. -/
theorem Full.round_eq (h : Full m e) (hvalue : (n : ℚ) * 2 ^ k = m * 2 ^ e) :
    UnpackedFloat.round .binary64 sign n k = .finite sign m e h.pos := by
  -- Digits that are missing at the end of `n` are filled up before it is rounded.
  have hmissing : n * 2 ^ (k - e).toNat = m * 2 ^ (e - k).toNat := by
    have hk : (k - e).toNat = (k - min k e).toNat := by omega
    have he : (e - k).toNat = (e - min k e).toNat := by omega
    have hcast : ((n * 2 ^ (k - e).toNat : ℕ) : ℚ) * 2 ^ min k e
        = (m * 2 ^ (e - k).toNat : ℕ) * 2 ^ min k e := by
      rw [hk, he, cast_filled_mul_zpow n (min_le_left k e), cast_filled_mul_zpow m (min_le_right k e),
        hvalue]
    exact_mod_cast mul_right_cancel₀ (zpow_pos (two_pos : (0 : ℚ) < 2) (min k e)).ne' hcast
  have hexponent : k - ((k - e).toNat : ℤ) = e - ((e - k).toNat : ℤ) := by omega
  have hn : 0 < n := Nat.pos_of_ne_zero fun hzero => by
    rw [hzero, Nat.zero_mul] at hmissing
    exact absurd hmissing.symm (Nat.mul_pos h.pos (Nat.two_pow_pos _)).ne'
  have htotal : totalExponent n k = totalExponent (m * 2 ^ (e - k).toNat) (e - (e - k).toNat) := by
    rw [totalExponent, totalExponent, ← hmissing, log2_mul_two_pow hn]
    omega
  rw [UnpackedFloat.round, htotal, h.targetExponent_eq]
  change UnpackedFloat.roundWithAccuracy .binary64 sign (n <<< (k - e).toNat)
    (k - ((k - e).toNat : ℤ)) .exact = _
  rw [Nat.shiftLeft_eq, hmissing, hexponent, h.roundWithAccuracy_eq]

/-! ## Packing -/

/-- The exponent as it is kept in the bits of a double. -/
def biased (e : ℤ) : ℕ := (e + (1023 : ℕ) + (52 : ℕ)).toNat

theorem Full.biased_pos (h : Full m e) : 0 < biased e := by
  have hlow : -1074 ≤ e := h.le_exponent
  rw [biased]
  omega

theorem biased_lt (he : e ≤ largestExponent) : biased e < 2047 := by
  have hhigh : e ≤ 971 := he
  rw [biased]
  omega

theorem toNat_biased (he : e ≤ largestExponent) :
    (BitVec.ofNat Format.binary64.exponentBits (biased e)).toNat = biased e :=
  Nat.mod_eq_of_lt ((biased_lt he).trans (by decide))

/-- The first digit of a full mantissa is understood and the others are kept. -/
theorem Full.toNat_mantissa (h : Full m e) :
    (1#1 ++ BitVec.ofNat Format.binary64.mantissaBitsWithoutImplicit m).toNat = m := by
  rw [BitVec.toNat_append, BitVec.toNat_ofNat]
  change 1 <<< 52 ||| m % 2 ^ 52 = m
  rw [← Nat.shiftLeft_add_eq_or_of_lt (Nat.mod_lt _ (Nat.two_pow_pos 52))]
  have := h.le
  have := h.lt
  omega

theorem Full.pack_eq (h : Full m e) (he : e ≤ largestExponent) :
    UnpackedFloat.pack .binary64 (.finite sign m e h.pos)
      = UnpackedFloat.packComponents .binary64 sign (BitVec.ofNat _ (biased e))
        (BitVec.ofNat _ m) := by
  have hfits : ¬ 2 ^ 11 ≤ (e + (1023 : ℕ) + (52 : ℕ)).toNat + 1 :=
    Nat.not_le.mpr (Nat.succ_lt_succ (biased_lt he))
  unfold UnpackedFloat.pack
  dsimp only
  rw [exponentBias_binary64, if_neg hfits, h.log2_eq]
  rfl

/-- A number with a full mantissa is kept in the bits of a double. -/
theorem Full.unpack_pack (h : Full m e) (he : e ≤ largestExponent) :
    UnpackedFloat.unpack .binary64 (UnpackedFloat.pack .binary64 (.finite sign m e h.pos))
      = .finite sign m e h.pos := by
  have hones : BitVec.ofNat Format.binary64.exponentBits (biased e) ≠ -1#_ := fun hones => by
    have heq := congrArg BitVec.toNat hones
    rw [toNat_biased he, toNat_ones] at heq
    exact (biased_lt he).ne heq
  have hzeros : BitVec.ofNat Format.binary64.exponentBits (biased e) ≠ 0#_ := fun hzeros => by
    have heq := congrArg BitVec.toNat hzeros
    rw [toNat_biased he] at heq
    exact h.biased_pos.ne' heq
  have hexponent : (biased e : ℤ) - ((1023 : ℕ) + (52 : ℕ)) = e := by
    have hlow : -1074 ≤ e := h.le_exponent
    rw [biased]
    omega
  rw [h.pack_eq he]
  unfold UnpackedFloat.unpack
  dsimp only
  simp only [UnpackedFloat.unpackExponent_packComponents, UnpackedFloat.unpackMantissa_packComponents,
    UnpackedFloat.unpackSign_packComponents, UnpackedFloat.Sign.ofBitVec_toBitVec]
  rw [if_neg hones, if_neg hzeros]
  congr 1
  · exact h.toNat_mantissa
  · rw [toNat_biased he, exponentBias_binary64]
    exact hexponent

/-! ## Whole numbers -/

/-- A whole number in all the digits of a double. -/
def whole (n : Nat) : UnpackedFloat :=
  if h : 0 < n then .finite .positive (n * 2 ^ (52 - n.log2)) (n.log2 - 52)
    (Nat.mul_pos h (Nat.two_pow_pos _))
  else .zero .positive

theorem log2_le (hpos : 0 < n) (hlt : n < 2 ^ 53) : n.log2 ≤ 52 :=
  Nat.le_of_lt_succ ((Nat.log2_lt hpos.ne').mpr hlt)

theorem full_whole (hpos : 0 < n) (hlt : n < 2 ^ 53) :
    Full (n * 2 ^ (52 - n.log2)) (n.log2 - 52) := by
  have hlog := log2_le hpos hlt
  refine ⟨?_, ?_, by change (-1074 : ℤ) ≤ _; omega⟩
  · calc 2 ^ 52 = 2 ^ n.log2 * 2 ^ (52 - n.log2) := by rw [← Nat.pow_add, Nat.add_sub_of_le hlog]
      _ ≤ n * 2 ^ (52 - n.log2) := Nat.mul_le_mul_right _ (Nat.log2_self_le hpos.ne')
  · calc n * 2 ^ (52 - n.log2) < 2 ^ (n.log2 + 1) * 2 ^ (52 - n.log2) :=
          Nat.mul_lt_mul_of_pos_right Nat.lt_log2_self (Nat.two_pow_pos _)
      _ = 2 ^ 53 := by
          rw [← Nat.pow_add]
          congr 1
          omega

theorem value_whole (hpos : 0 < n) (hlt : n < 2 ^ 53) :
    ((n * 2 ^ (52 - n.log2) : ℕ) : ℚ) * 2 ^ ((n.log2 : ℤ) - 52) = n := by
  have hlog : (n.log2 : ℤ) - 52 ≤ 0 := by
    have := log2_le hpos hlt
    omega
  have hfilled : 52 - n.log2 = (0 - ((n.log2 : ℤ) - 52)).toNat := by omega
  rw [hfilled, cast_filled_mul_zpow n hlog, zpow_zero, mul_one]

theorem rational?_whole (hlt : n < 2 ^ 53) : rational? (whole n) = some (n : ℚ) := by
  obtain rfl | hpos := Nat.eq_zero_or_pos n
  · rfl
  · rw [whole, dif_pos hpos]
    exact congrArg some (value_whole hpos hlt)

/-- A number is rounded to the whole number that it is. -/
theorem normalize_eq_whole (hlt : n < 2 ^ 53) {i : ℤ} (hvalue : (i : ℚ) * 2 ^ k = n) :
    UnpackedFloat.normalize .binary64 i k .positive = whole n := by
  have hpow := zpow_pos (two_pos : (0 : ℚ) < 2) k
  obtain rfl | hpos := Nat.eq_zero_or_pos n
  · have hi : i = 0 := by
      rw [Nat.cast_zero] at hvalue
      exact_mod_cast (mul_eq_zero.mp hvalue).resolve_right hpow.ne'
    rw [hi]
    rfl
  · have hi : 0 < i := by
      have hproduct : (0 : ℚ) < i * 2 ^ k := hvalue ▸ Nat.cast_pos.mpr hpos
      exact_mod_cast (mul_pos_iff_of_pos_right hpow).mp hproduct
    have hnat : ((i.toNat : ℕ) : ℚ) = i := by exact_mod_cast Int.toNat_of_nonneg hi.le
    rw [UnpackedFloat.normalize, compare_gt_iff_gt.mpr hi, whole, dif_pos hpos]
    exact (full_whole hpos hlt).round_eq (by rw [hnat, hvalue, value_whole hpos hlt])

theorem unpack_pack_whole (hlt : n < 2 ^ 53) :
    UnpackedFloat.unpack .binary64 (UnpackedFloat.pack .binary64 (whole n)) = whole n := by
  obtain rfl | hpos := Nat.eq_zero_or_pos n
  · rfl
  · have hlog := log2_le hpos hlt
    rw [whole, dif_pos hpos]
    exact (full_whole hpos hlt).unpack_pack (by change _ ≤ (971 : ℤ); omega)

theorem zero_add_whole (n : Nat) :
    UnpackedFloat.add .binary64 (.zero .positive) (whole n) = whole n := by
  obtain rfl | hpos := Nat.eq_zero_or_pos n
  · rfl
  · rw [whole, dif_pos hpos]
    rfl

theorem add_whole (hlt : a + b < 2 ^ 53) :
    UnpackedFloat.add .binary64 (whole a) (whole b) = whole (a + b) := by
  obtain rfl | ha := Nat.eq_zero_or_pos a
  · rw [Nat.zero_add]
    exact zero_add_whole b
  obtain rfl | hb := Nat.eq_zero_or_pos b
  · rw [Nat.add_zero, whole, dif_pos ha]
    rfl
  -- Both mantissas are written with the smaller exponent.
  have haligned : ∀ {m : ℕ} {e k : ℤ}, k ≤ e →
      ((m <<< (e - k).toNat : ℕ) : ℚ) * 2 ^ k = m * 2 ^ e := fun {m e k} h => by
    rw [Nat.shiftLeft_eq, cast_filled_mul_zpow m h]
  rw [whole, whole, dif_pos ha, dif_pos hb]
  refine normalize_eq_whole hlt ?_
  simp only [UnpackedFloat.Sign.apply]
  rw [Int.cast_add, Int.cast_natCast, Int.cast_natCast, add_mul, haligned (min_le_left _ _),
    haligned (min_le_right _ _), value_whole ha (by omega), value_whole hb (by omega),
    Nat.cast_add]

end

section

variable {a b n : Nat} {x : Float}

theorem toModel_ofNat (hlt : n < 2 ^ 53) : (ofNat n).toModel = Float.Model.pack (whole n) := by
  have hword : n.toUInt64.toNat = n := Nat.mod_eq_of_lt (hlt.trans (by decide))
  have hvalue : ((n : ℤ) : ℚ) * 2 ^ (0 : ℤ) = n := by rw [zpow_zero, mul_one, Int.cast_natCast]
  change Float.Model.pack (UnpackedFloat.normalize .binary64 n.toUInt64.toNat 0 .positive) = _
  rw [hword, normalize_eq_whole hlt hvalue]

theorem unpack_ofNat (hlt : n < 2 ^ 53) : (ofNat n).toModel.unpack = whole n := by
  rw [toModel_ofNat hlt]
  exact unpack_pack_whole hlt

theorem position?_ofNat (hlt : n < 2 ^ 53) : position? (ofNat n) = some (.ofRat n) := by
  rw [position?, unpack_ofNat hlt]
  have hrational := rational?_whole hlt
  cases hwhole : whole n with
  | infinity | notANumber => rw [hwhole] at hrational; cases hrational
  | zero | finite =>
      rw [hwhole] at hrational
      exact congrArg (Option.map Extended.ofRat) hrational

/-- Two whole numbers are added exactly, if a double has room for the sum. -/
theorem ofNat_add_ofNat (hlt : a + b < 2 ^ 53) : ofNat a + ofNat b = ofNat (a + b) := by
  have hmodel : (ofNat a + ofNat b).toModel = (ofNat (a + b)).toModel := by
    change Float.Model.pack (UnpackedFloat.add .binary64 (ofNat a).toModel.unpack
      (ofNat b).toModel.unpack) = _
    rw [unpack_ofNat (by omega), unpack_ofNat (by omega), add_whole hlt, toModel_ofNat hlt]
  exact congrArg Float.ofModel hmodel

/-! ## Recognizing whole numbers -/

theorem cast_mul_zpow_eq_iff (m a : ℕ) (e : ℤ) :
    (m : ℚ) * 2 ^ e = a ↔ m * 2 ^ e.toNat = a * 2 ^ (-e).toNat := by
  rw [two_zpow_eq_div, mul_div_assoc', div_eq_iff (pow_pos two_pos _).ne']
  exact_mod_cast Iff.rfl

/-- A mantissa with an exponent is a whole number if the digits that are cut off are zeros. -/
theorem cutOff_eq_iff (m a : ℕ) (e : ℤ) :
    m % 2 ^ (-e).toNat = 0 ∧ m * 2 ^ e.toNat / 2 ^ (-e).toNat = a ↔ (m : ℚ) * 2 ^ e = a := by
  rw [cast_mul_zpow_eq_iff]
  obtain he | he := Int.le_total 0 e
  · rw [Int.toNat_eq_zero.mpr (Int.neg_nonpos_of_nonneg he), Nat.pow_zero, Nat.div_one, Nat.mul_one]
    exact and_iff_right (Nat.mod_one m)
  · rw [Int.toNat_eq_zero.mpr he, Nat.pow_zero, Nat.mul_one, ← Nat.dvd_iff_mod_eq_zero]
    constructor
    · rintro ⟨hdvd, rfl⟩
      exact (Nat.div_mul_cancel hdvd).symm
    · rintro rfl
      exact ⟨Nat.dvd_mul_left _ _, Nat.mul_div_cancel _ (Nat.two_pow_pos _)⟩

theorem cutOff_pos {m : ℕ} {e : ℤ} (hm : 0 < m) (hcut : m % 2 ^ (-e).toNat = 0) :
    0 < m * 2 ^ e.toNat / 2 ^ (-e).toNat := by
  refine Nat.div_pos ?_ (Nat.two_pow_pos _)
  calc 2 ^ (-e).toNat ≤ m := Nat.le_of_dvd hm (Nat.dvd_of_mod_eq_zero hcut)
    _ ≤ m * 2 ^ e.toNat := Nat.le_mul_of_pos_right m (Nat.two_pow_pos _)

/-- A double is recognized as a whole number if and only if it has the place of that number. -/
theorem toNat?_eq_some_iff : toNat? x = some a ↔ position? x = some (.ofRat a) := by
  unfold toNat? isWhole integerPart? position?
  cases x.toModel.unpack with
  | notANumber => exact iff_of_false nofun nofun
  | infinity sign => cases sign <;> exact iff_of_false nofun nofun
  | zero sign =>
      change some 0 = some a ↔ some (Extended.ofRat 0) = some (Extended.ofRat a)
      rw [Option.some_inj, Option.some_inj, Extended.ofRat_inj]
      exact_mod_cast Iff.rfl
  | finite sign m e hpos =>
      have hplace : ∀ q : ℚ, some (Extended.ofRat q) = some (Extended.ofRat a) ↔ q = a :=
        fun q => by rw [Option.some_inj, Extended.ofRat_inj]
      have hproduct := cast_mul_zpow_pos e hpos
      have ha : (0 : ℚ) ≤ a := Nat.cast_nonneg a
      simp only [Nat.pow_eq]
      by_cases hcut : m % 2 ^ (-e).toNat = 0
      · rw [if_pos (beq_iff_eq.mpr hcut), Option.bind_some]
        cases sign with
        | positive =>
            rw [if_pos (Int.natCast_nonneg _), Int.toNat_natCast, Option.some_inj]
            exact Iff.trans ⟨fun h => ⟨hcut, h⟩, And.right⟩ ((cutOff_eq_iff m a e).trans (hplace _).symm)
        | negative =>
            have hmagnitude := cutOff_pos hpos hcut
            refine iff_of_false (fun h => ?_) ((hplace _).not.mpr (by linarith))
            dsimp only at h
            rw [if_neg (Int.not_le.mpr (Int.neg_neg_of_pos (Int.natCast_pos.mpr hmagnitude)))] at h
            cases h
      · rw [if_neg (fun h => hcut (beq_iff_eq.mp h))]
        refine iff_of_false nofun fun h => ?_
        cases sign with
        | positive => exact hcut ((cutOff_eq_iff m a e).mpr ((hplace _).mp h)).1
        | negative => linarith [(hplace _).mp h]

end

end Recalc.Double
