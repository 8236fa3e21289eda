import ConeFilter.Value
import Mathlib

/-!
Doubles that stay finite. A double is infinite only when its exponent reaches a
limit, and negation and the conversion of a word keep away from it. Exponents
are bounded along the way from a significand of any width, through rounding, to
the bits and back; the value of the number plays no part.
-/
namespace ConeFilter.Numeral

open Float.Model (Format UnpackedFloat)
open Float.Model.UnpackedFloat (Sign Accuracy ExtendedMantissa unpackExponent unpackMantissa)

abbrev double : Format := Format.binary64

/-- Zero, or a finite number whose exponent lies below the limit. -/
def Below (limit : Int) : UnpackedFloat → Prop
  | .zero _ => True
  | .finite _ _ exponent _ => exponent < limit
  | .infinity _ | .notANumber => False

theorem Below.isFinite {limit : Int} {number : UnpackedFloat} (below : Below limit number) :
    number.isFinite = true := by
  cases number with
  | zero sign => rfl
  | finite sign mantissa exponent positive => rfl
  | infinity sign => cases below
  | notANumber => cases below

/-! Rounding. It shifts the significand to the width of a double, twice because the
first rounding may carry into one more place. A shift adds to the exponent no more
than the width of the significand. -/

theorem mantissa_shifted (extended : ExtendedMantissa) (places : Nat) :
    (extended >>> places).mantissa ≤ extended.mantissa := by
  change (places.repeat ExtendedMantissa.shiftRightOne extended).mantissa ≤ extended.mantissa
  induction places with
  | zero => exact Nat.le_refl _
  | succ places ih => exact Nat.le_trans (Nat.div_le_self _ 2) ih

theorem mantissa_rounded (extended : ExtendedMantissa) :
    extended.roundedMantissa ≤ extended.mantissa + 1 := by
  unfold ExtendedMantissa.roundedMantissa Accuracy.roundToNearestEven
  split <;> omega

theorem mantissa_extended (mantissa : Nat) (accuracy : Accuracy) :
    (ExtendedMantissa.ofMantissaAndAccuracy mantissa accuracy).mantissa = mantissa := by
  unfold ExtendedMantissa.ofMantissaAndAccuracy
  split <;> rfl

theorem shift_bounds (mantissa : Nat) (exponent : Int) (accuracy : Accuracy) :
    (UnpackedFloat.shiftToTargetExponent double mantissa exponent accuracy).1.mantissa ≤
      mantissa ∧
    (UnpackedFloat.shiftToTargetExponent double mantissa exponent accuracy).2 =
      max exponent (max (mantissa.log2 + exponent - 52) (-1074)) := by
  constructor
  · refine Nat.le_trans (mantissa_shifted _ _) (Nat.le_of_eq ?_)
    exact mantissa_extended mantissa accuracy
  · simp only [UnpackedFloat.shiftToTargetExponent, UnpackedFloat.shiftToExponent,
      Format.targetExponent, Float.Model.totalExponent, Format.mantissaBits, Format.minExponent]
    omega

theorem log2_lt_width {n width : Nat} (short : n < 2 ^ width) (positive : 0 < width) :
    n.log2 < width := by
  by_cases zero : n = 0
  · simpa [zero] using positive
  · exact (Nat.log2_lt zero).mpr short

theorem below_round (sign : Sign) (mantissa : Nat) (exponent : Int) (accuracy : Accuracy)
    (width : Nat) (limit : Int) (positive : 0 < width) (short : mantissa < 2 ^ width)
    (near : exponent + 2 * width < limit) (deep : width < limit + 1074) :
    Below limit (UnpackedFloat.roundWithAccuracy double sign mantissa exponent accuracy) := by
  obtain ⟨kept, placed⟩ := shift_bounds mantissa exponent accuracy
  unfold UnpackedFloat.roundWithAccuracy
  generalize UnpackedFloat.shiftToTargetExponent double mantissa exponent accuracy = first at *
  obtain ⟨extended, moved⟩ := first
  obtain ⟨-, last⟩ := shift_bounds extended.roundedMantissa moved .exact
  simp only at kept placed last ⊢
  generalize UnpackedFloat.shiftToTargetExponent double extended.roundedMantissa moved .exact =
    second at *
  have before : mantissa.log2 < width := log2_lt_width short positive
  have after : extended.roundedMantissa.log2 < width + 1 := by
    have carried := mantissa_rounded extended
    apply log2_lt_width
    · rw [Nat.pow_succ]
      omega
    · omega
  split
  · trivial
  · unfold Below
    simp only
    omega

/-! Packing. The bits hold the exponent with an offset, and reading them back gives the
same exponent, or the least one for numbers too small to be normal. -/

theorem exponent_pack (sign : Sign) (mantissa : Nat) (exponent : Int) (positive : 0 < mantissa)
    (small : exponent < 972) :
    ((unpackExponent (UnpackedFloat.pack double
      (.finite sign mantissa exponent positive))).toNat : Int) ≤ max 0 (exponent + 1075) := by
  have fits : ¬ 2 ^ double.exponentBits ≤
      (exponent + double.exponentBias + double.mantissaBitsWithoutImplicit).toNat + 1 := by
    simp only [Format.exponentBias]
    omega
  rw [UnpackedFloat.pack]
  simp only [fits, if_false]
  by_cases normal : mantissa.log2 + 1 = double.mantissaBits
  · simp only [normal, if_true, UnpackedFloat.unpackExponent_packComponents, Format.exponentBias,
      BitVec.toNat_ofNat]
    omega
  · simp only [normal, if_false, UnpackedFloat.unpackExponent_packComponents, BitVec.toNat_ofNat]
    omega

theorem below_unpack (bits : BitVec double.numBits) (limit : Int) (deep : -1074 < limit)
    (fits : limit ≤ 972) (low : ((unpackExponent bits).toNat : Int) < limit + 1075) :
    Below limit (UnpackedFloat.unpack double bits) := by
  have special : unpackExponent bits ≠ -1#_ := by
    intro same
    rw [same] at low
    simp at low
    omega
  unfold UnpackedFloat.unpack
  simp only [special, if_false, Format.exponentBias]
  split
  · rename_i zero
    split
    · trivial
    · rw [zero]
      simp only [Below, BitVec.toNat_ofNat]
      omega
  · simp only [Below]
    omega

theorem below_pack (number : UnpackedFloat) (limit : Int) (deep : -1074 < limit)
    (fits : limit ≤ 972) (below : Below limit number) :
    Below limit (Float.Model.pack number).unpack := by
  apply below_unpack _ limit deep fits
  change ((unpackExponent (UnpackedFloat.pack double number)).toNat : Int) < limit + 1075
  cases number with
  | zero sign =>
      rw [UnpackedFloat.pack, UnpackedFloat.packedZero,
        UnpackedFloat.unpackExponent_packComponents]
      simp only [BitVec.ofNat_eq_ofNat, BitVec.toNat_ofNat]
      omega
  | finite sign mantissa exponent positive =>
      have small : exponent < limit := below
      have packed := exponent_pack sign mantissa exponent positive (by omega)
      omega
  | infinity sign => cases below
  | notANumber => cases below

theorem below_of_isFinite (bits : BitVec double.numBits)
    (finite : (UnpackedFloat.unpack double bits).isFinite = true) :
    Below 972 (UnpackedFloat.unpack double bits) := by
  apply below_unpack bits 972 (by decide) (by decide)
  have inside := (unpackExponent bits).isLt
  have special : (unpackExponent bits).toNat ≠ 2047 := by
    intro same
    have all : unpackExponent bits = -1#_ := BitVec.eq_of_toNat_eq (by rw [same]; decide)
    unfold UnpackedFloat.unpack at finite
    simp only [all, if_true] at finite
    split at finite <;> cases finite
  simp only [Nat.reducePow] at inside
  omega

theorem mantissa_unpack (bits : BitVec double.numBits) (sign : Sign) (mantissa : Nat)
    (exponent : Int) (positive : 0 < mantissa)
    (read : UnpackedFloat.unpack double bits = .finite sign mantissa exponent positive) :
    mantissa < 2 ^ 53 := by
  unfold UnpackedFloat.unpack at read
  simp only at read
  split at read
  · split at read <;> cases read
  · split at read
    · split at read
      · cases read
      · injection read with _ same _
        have inside := (unpackMantissa bits).isLt
        omega
    · injection read with _ same _
      have inside := (1#1 ++ unpackMantissa bits).isLt
      omega

/-! The two operations. -/

theorem isFinite_neg (number : Float) (finite : number.isFinite = true) :
    (-number).isFinite = true := by
  have below : Below 972 number.toModel.unpack := below_of_isFinite _ finite
  have negated : Below 972 number.toModel.unpack.neg := by
    generalize number.toModel.unpack = unpacked at below
    cases unpacked <;> exact below
  exact (below_pack _ 972 (by decide) (by decide) negated).isFinite

theorem shiftLeft_lt {n width : Nat} (short : n < 2 ^ width) (places : Nat) :
    n <<< places < 2 ^ (width + places) := by
  rw [Nat.shiftLeft_eq, Nat.pow_add]
  exact Nat.mul_lt_mul_of_pos_right short (Nat.two_pow_pos places)

theorem places_le (n : Nat) :
    (0 - double.targetExponent (Float.Model.totalExponent n 0)).toNat ≤ 52 := by
  simp only [Format.targetExponent, Float.Model.totalExponent, Format.mantissaBits,
    Format.minExponent]
  omega

theorem below_ofNat (n : Nat) (fits : n < 2 ^ 64) : Below 300 (UnpackedFloat.ofNat double n) := by
  unfold UnpackedFloat.ofNat UnpackedFloat.ofInt UnpackedFloat.normalize
  by_cases zero : n = 0
  · subst zero
    trivial
  · have few := places_le n
    rw [Int.compare_eq_gt.mpr (by omega)]
    simp only [UnpackedFloat.round, UnpackedFloat.decreaseExponent, Int.toNat_natCast]
    generalize (0 - double.targetExponent (Float.Model.totalExponent n 0)).toNat = places at few
    have short : n <<< places < 2 ^ 116 :=
      Nat.lt_of_lt_of_le (shiftLeft_lt fits places) (Nat.pow_le_pow_right (by decide) (by omega))
    exact below_round _ _ _ _ 116 300 (by decide) short (by omega) (by decide)

theorem below_mul (left right : Float.Model) (leftBelow : Below 300 left.unpack)
    (rightBelow : Below 300 right.unpack) :
    Below 972 (UnpackedFloat.mul double left.unpack right.unpack) := by
  cases leftRead : left.unpack with
  | zero sign =>
      cases rightRead : right.unpack with
      | zero sign => trivial
      | finite sign mantissa exponent positive => trivial
      | infinity sign => simp [rightRead, Below] at rightBelow
      | notANumber => simp [rightRead, Below] at rightBelow
  | finite sign mantissa exponent positive =>
      cases rightRead : right.unpack with
      | zero sign => trivial
      | finite other factor power nonzero =>
          have product : mantissa * factor < 2 ^ 53 * 2 ^ 53 :=
            Nat.mul_lt_mul'' (mantissa_unpack _ _ _ _ _ leftRead)
              (mantissa_unpack _ _ _ _ _ rightRead)
          rw [← Nat.pow_add] at product
          simp only [leftRead, rightRead, Below] at leftBelow rightBelow
          exact below_round _ _ _ _ 106 972 (by decide) product (by omega) (by decide)
      | infinity sign => simp [rightRead, Below] at rightBelow
      | notANumber => simp [rightRead, Below] at rightBelow
  | infinity sign => simp [leftRead, Below] at leftBelow
  | notANumber => simp [leftRead, Below] at leftBelow

theorem below_ofScientific (n : Nat) (fits : n < 2 ^ 64) :
    Below 972 (UnpackedFloat.ofScientific double n 0) := by
  unfold UnpackedFloat.ofScientific
  split
  · trivial
  · have floor : ¬ (0 : Int) < -((2 ^ double.exponentBits : Int) + n.log2) := by
      have positive : (0 : Int) < 2 ^ double.exponentBits := by decide
      omega
    rw [if_neg (by decide), if_neg floor, if_pos (by decide), UnpackedFloat.mul, Int.toNat_zero,
      Nat.pow_zero, Nat.mul_one]
    have short : n <<< double.mantissaBits < 2 ^ 117 := shiftLeft_lt fits 53
    generalize n <<< double.mantissaBits = mantissa at short ⊢
    exact below_round _ mantissa _ .exact 117 972 (by decide) short (by decide) (by decide)

/-- Numbers that are exact as doubles are multiplied by one, the others are rounded. -/
theorem isFinite_ofNat (n : Nat) (fits : n < 2 ^ 64) : (Float.ofNat n).isFinite = true := by
  change (Float.ofScientific n false 0).isFinite = true
  unfold Float.ofScientific
  split
  · have exact := below_pack _ 300 (by decide) (by decide)
      (below_ofNat n.toUInt64.toNat n.toUInt64.toNat_lt)
    have one : Below 300 (Float.Model.ofBits 0x3ff0000000000000).unpack :=
      (by decide : (-52 : Int) < 300)
    exact (below_pack _ 972 (by decide) (by decide) (below_mul _ _ exact one)).isFinite
  · exact (below_pack _ 972 (by decide) (by decide) (below_ofScientific n fits)).isFinite

theorem isFinite_wordToFloat (word : Int64) : (Value.wordToFloat word).isFinite = true := by
  have least := word.le_toInt
  have greatest := word.toInt_lt
  unfold Value.wordToFloat Float.ofInt
  split
  · rename_i n same
    rw [same, Int.ofNat_eq_natCast] at greatest
    exact isFinite_ofNat n (by omega)
  · rename_i n same
    rw [same, Int.negSucc_eq] at least
    exact isFinite_neg _ (isFinite_ofNat _ (by omega))

end ConeFilter.Numeral
