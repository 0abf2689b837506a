/-
**Floating-point entries.**

An entry that is read through a coefficient becomes `0 + 1 * x`. Over floating-point numbers that
is `x` again, infinities and NaN included, but for a negative zero, which loses its sign.

* `roundWithAccuracy_scaled`: rounding undoes a scaling by a power of two;
* `one_mul_eq`: the product with one is exact;
* `zero_add_eq`: the sum with zero is exact, except on a negative zero;
* `agrees_iff`: what a floating-point entry may become;
* `nonneg_zero_add`, `nonpos_zero_add`: the sum with zero keeps the sign;
* `nonneg_and_nonpos_iff`: only the two zeros have both signs;
* `beq_self_of_number`: all but NaN compare equal to themselves;
* `magnitudesNonneg`: no magnitude is at or below a negative number.
-/

import Mathlib
import AffineArrays.Proofs.FormEvaluation

namespace AffineArrays

namespace FloatEntries

open Float.Model (Format totalExponent UnpackedFloat)
open Float.Model.UnpackedFloat

/-! ## Part 1: unpacked numbers -/

/-- A finite number has the exponent that the format gives it. -/
def Canonical : UnpackedFloat → Prop
  | .finite _ mantissa exponent _ =>
    Format.binary64.targetExponent (totalExponent mantissa exponent) = exponent
  | _ => True

theorem targetExponent_eq (total : Int) :
    Format.binary64.targetExponent total = max (total - 53) (-1074) := rfl

theorem canonical_unpack (bits : BitVec Format.binary64.numBits) :
    Canonical (unpack Format.binary64 bits) := by
  fun_cases unpack with
  | case1 => trivial
  | case2 => trivial
  | case3 => trivial
  | case4 mantissaVec exponentVec exponent signVec sign _ zeroExponent nonzero =>
    have positive : mantissaVec.toNat ≠ 0 := fun zero => nonzero (BitVec.eq_of_toNat_eq zero)
    have small : mantissaVec.toNat.log2 < 52 := (Nat.log2_lt positive).mpr mantissaVec.isLt
    have least : exponent = -1075 := by
      show (exponentVec.toNat : Int) - 1075 = -1075
      rw [zeroExponent]
      rfl
    show Format.binary64.targetExponent _ = _
    rw [targetExponent_eq, totalExponent]
    omega
  | case5 mantissaVec exponentVec exponent signVec sign _ nonzero =>
    have positive : exponentVec.toNat ≠ 0 := fun zero => nonzero (BitVec.eq_of_toNat_eq zero)
    have biased : exponent = (exponentVec.toNat : Int) - 1075 := rfl
    have below : mantissaVec.toNat < 2 ^ 52 := mantissaVec.isLt
    have leading : (1#1 ++ mantissaVec).toNat = 2 ^ 52 + mantissaVec.toNat := by
      rw [BitVec.toNat_append]
      exact (Nat.two_pow_add_eq_or_of_lt mantissaVec.isLt 1).symm
    have full : (1#1 ++ mantissaVec).toNat.log2 = 52 := by
      rw [leading, Nat.log2_eq_iff (by omega)]
      omega
    show Format.binary64.targetExponent _ = _
    rw [targetExponent_eq, totalExponent, full]
    omega

/-! ## Part 2: rounding a scaled mantissa -/

theorem shiftRight_scaled (count mantissa : Nat) :
    (⟨2 ^ count * mantissa, false, false⟩ : ExtendedMantissa) >>> count =
      ⟨mantissa, false, false⟩ := by
  induction count generalizing mantissa with
  | zero =>
    rw [Nat.pow_zero, Nat.one_mul]
    rfl
  | succ count step =>
    show ExtendedMantissa.shiftRightOne ((_ : ExtendedMantissa) >>> count) = _
    rw [Nat.pow_succ, Nat.mul_assoc, step]
    simp [ExtendedMantissa.shiftRightOne]

theorem log2_scaled {mantissa : Nat} (positive : 0 < mantissa) (count : Nat) :
    (2 ^ count * mantissa).log2 = mantissa.log2 + count := by
  induction count with
  | zero => rw [Nat.pow_zero, Nat.one_mul, Nat.add_zero]
  | succ count step =>
    have nonzero : 2 ^ count * mantissa ≠ 0 := (Nat.mul_pos (Nat.two_pow_pos count) positive).ne'
    rw [Nat.pow_succ', Nat.mul_assoc, Nat.log2_two_mul nonzero, step, Nat.add_assoc]

section Rounding

variable {mantissa : Nat} {exponent : Int}

theorem shiftToTargetExponent_scaled (positive : 0 < mantissa)
    (canonical : Format.binary64.targetExponent (totalExponent mantissa exponent) = exponent)
    (count : Nat) :
    shiftToTargetExponent Format.binary64 (2 ^ count * mantissa) (exponent - count) .exact =
      (⟨mantissa, false, false⟩, exponent) := by
  have total : totalExponent (2 ^ count * mantissa) (exponent - count) =
      totalExponent mantissa exponent := by
    rw [totalExponent, totalExponent, log2_scaled positive]
    omega
  have amount : (exponent - (exponent - count)).toNat = count := by omega
  rw [shiftToTargetExponent, total, canonical, shiftToExponent, amount, Int.sub_add_cancel]
  show ((⟨2 ^ count * mantissa, false, false⟩ : ExtendedMantissa) >>> count, exponent) = _
  rw [shiftRight_scaled]

/-- Rounding undoes a scaling by a power of two: the dropped bits are all zero. -/
theorem roundWithAccuracy_scaled (positive : 0 < mantissa)
    (canonical : Format.binary64.targetExponent (totalExponent mantissa exponent) = exponent)
    (sign : UnpackedFloat.Sign) (count : Nat) :
    roundWithAccuracy Format.binary64 sign (2 ^ count * mantissa) (exponent - count) .exact =
      .finite sign mantissa exponent positive := by
  -- rounding shifts twice, and the second shift finds nothing left to drop
  have again : shiftToTargetExponent Format.binary64 mantissa exponent .exact =
      (⟨mantissa, false, false⟩, exponent) := by
    have unscaled := shiftToTargetExponent_scaled positive canonical 0
    rwa [Nat.pow_zero, Nat.one_mul, Int.natCast_zero, Int.sub_zero] at unscaled
  have rounded : (⟨mantissa, false, false⟩ : ExtendedMantissa).roundedMantissa = mantissa := rfl
  simp only [roundWithAccuracy, shiftToTargetExponent_scaled positive canonical, rounded, again]
  exact dif_neg positive.ne'

end Rounding

/-! ## Part 3: one and zero -/

theorem unpack_one :
    (1 : Float).toModel.unpack = .finite .positive (2 ^ 52) (-52) (Nat.two_pow_pos 52) := rfl

theorem mul_unpacked_one {number : UnpackedFloat} (canonical : Canonical number) :
    mul Format.binary64 (.finite .positive (2 ^ 52) (-52) (Nat.two_pow_pos 52)) number =
      number := by
  cases number with
  | infinity sign => cases sign <;> rfl
  | notANumber => rfl
  | zero sign => cases sign <;> rfl
  | finite sign mantissa exponent positive =>
    have own : UnpackedFloat.Sign.positive * sign = sign := by cases sign <;> rfl
    show roundWithAccuracy _ (UnpackedFloat.Sign.positive * sign) _ (-52 + exponent) _ = _
    rw [own, Int.add_comm]
    exact roundWithAccuracy_scaled positive canonical sign 52

theorem add_unpacked_zero (number : UnpackedFloat) :
    add Format.binary64 (.zero .positive) number = number ∨
      number = .zero .negative ∧
        add Format.binary64 (.zero .positive) number = .zero .positive := by
  cases number with
  | zero sign =>
    cases sign with
    | positive => exact .inl rfl
    | negative => exact .inr ⟨rfl, rfl⟩
  | _ => exact .inl rfl

theorem pack_unpack (number : Float) : .ofModel (.pack number.toModel.unpack) = number := by
  obtain ⟨⟨bits, valid⟩⟩ := number
  show Float.ofModel (Float.Model.mk (UInt64.ofBitVec _) _) = _
  congr 2
  exact congrArg UInt64.ofBitVec (pack_unpack_of_valid valid)

/-- The product with one is exact. -/
theorem one_mul_eq (number : Float) : 1 * number = number := by
  have product := mul_unpacked_one (canonical_unpack number.toModel.toBits.toBitVec)
  calc 1 * number
      _ = .ofModel (.pack (mul _ (1 : Float).toModel.unpack number.toModel.unpack)) := rfl
      _ = .ofModel (.pack number.toModel.unpack) := by
        rw [unpack_one]
        exact congrArg (fun unpacked => Float.ofModel (.pack unpacked)) product
      _ = number := pack_unpack number

/-- The sum with zero is exact, except that it makes a negative zero positive. -/
theorem zero_add_eq (number : Float) :
    0 + number = number ∨ number = -0.0 ∧ 0 + number = 0 := by
  have sum : 0 + number =
      .ofModel (.pack (add Format.binary64 (.zero .positive) number.toModel.unpack)) := rfl
  rcases add_unpacked_zero number.toModel.unpack with same | ⟨negative, positive⟩
  · exact .inl (by rw [sum, same, pack_unpack])
  · refine .inr ⟨?_, by rw [sum, positive]; rfl⟩
    rw [← pack_unpack number, negative]
    rfl

/-- **A floating-point entry** comes through a coefficient as it is, or as zero if it is a negative
zero. -/
theorem agrees_iff {direct carried : Float} :
    AffineForm.Agrees direct carried ↔ carried = direct ∨ direct = -0.0 ∧ carried = 0 := by
  constructor
  · rintro (same | through)
    · exact .inl same
    · rw [one_mul_eq] at through
      rcases zero_add_eq direct with exact | ⟨negative, positive⟩
      · exact .inl (through.trans exact)
      · exact .inr ⟨negative, through.trans positive⟩
  · rintro (same | ⟨rfl, rfl⟩)
    · exact .inl same
    · exact .inr rfl

/-! ## Part 4: signs -/

theorem nonneg_zero_add {number : Float} : 0 ≤ 0 + number ↔ 0 ≤ number := by
  rcases zero_add_eq number with same | ⟨rfl, _⟩
  · rw [same]
  · exact iff_of_true (by decide) (by decide)

theorem nonpos_zero_add {number : Float} : 0 + number ≤ 0 ↔ number ≤ 0 := by
  rcases zero_add_eq number with same | ⟨rfl, _⟩
  · rw [same]
  · exact iff_of_true (by decide) (by decide)

theorem le_iff_unpacked {first second : Float} :
    first ≤ second ↔ UnpackedFloat.le first.toModel.unpack second.toModel.unpack = true := by
  show decide (first.toModel ≤ second.toModel) = true ↔ _
  rw [decide_eq_true_iff]
  exact Iff.rfl

/-- Only the two zeros are both at least and at most zero. -/
theorem nonneg_and_nonpos_iff {number : Float} :
    0 ≤ number ∧ number ≤ 0 ↔ number = 0 ∨ number = -0.0 := by
  constructor
  · rintro ⟨nonneg, nonpos⟩
    have zero : (0 : Float).toModel.unpack = .zero .positive := rfl
    rw [le_iff_unpacked, zero] at nonneg nonpos
    have packed := pack_unpack number
    generalize number.toModel.unpack = unpacked at nonneg nonpos packed
    cases unpacked with
    | zero sign =>
      cases sign with
      | positive => exact .inl packed.symm
      | negative => exact .inr packed.symm
    | notANumber => cases nonneg
    | infinity sign =>
      cases sign with
      | positive => cases nonpos
      | negative => cases nonneg
    | finite sign mantissa exponent positive =>
      cases sign with
      | positive => cases nonpos
      | negative => cases nonneg
  · rintro (rfl | rfl)
    · exact ⟨by decide, by decide⟩
    · exact ⟨by decide, by decide⟩

/-- A number that is not NaN compares equal to itself. -/
theorem beq_self_of_number {number : Float} (real : number.isNaN = false) :
    (number == number) = true := by
  rw [Float.isNaN_eq_decide_eq_nan] at real
  exact Float.beq_self_iff.mpr (of_decide_eq_false real)

/-! ## Part 5: magnitudes -/

/-- The number carries no minus sign. -/
def Unsigned : UnpackedFloat → Prop
  | .infinity sign | .zero sign | .finite sign _ _ _ => sign = .positive
  | .notANumber => True

/-- The sign bit of a magnitude is not set, in whatever way its number is packed. -/
theorem unpackSign_pack_abs (number : UnpackedFloat) :
    unpackSign (pack Format.binary64 number.abs) = 0#1 := by
  cases number with
  | notANumber => exact unpackSign_packComponents .positive _ _
  | infinity sign => exact unpackSign_packComponents .positive _ _
  | zero sign => exact unpackSign_packComponents .positive _ _
  | finite sign mantissa exponent positive =>
    simp only [UnpackedFloat.abs, pack]
    split
    · exact unpackSign_packComponents .positive _ _
    · split <;> exact unpackSign_packComponents .positive _ _

theorem unsigned_unpack {bits : BitVec Format.binary64.numBits} (plus : unpackSign bits = 0#1) :
    Unsigned (unpack Format.binary64 bits) := by
  have positive : UnpackedFloat.Sign.ofBitVec (unpackSign bits) = .positive := by
    rw [plus]
    rfl
  fun_cases unpack with
  | case2 => trivial
  | _ => exact positive

theorem lt_iff_unpacked {first second : Float} :
    first < second ↔ UnpackedFloat.lt first.toModel.unpack second.toModel.unpack = true := by
  show decide (first.toModel < second.toModel) = true ↔ _
  rw [decide_eq_true_iff]
  exact Iff.rfl

theorem le_eq_false_of_unsigned {number bound : UnpackedFloat} (unsigned : Unsigned number)
    (negative : bound.lt (.zero .positive) = true) : number.le bound = false := by
  cases bound with
  | notANumber => cases negative
  | zero sign => cases negative
  | infinity sign =>
    cases sign with
    | positive => cases negative
    | negative => cases number <;> cases unsigned <;> rfl
  | finite sign mantissa exponent positive =>
    cases sign with
    | positive => cases negative
    | negative => cases number <;> cases unsigned <;> rfl

/-- No magnitude is at or below a negative number, NaN included. -/
theorem magnitudesNonneg : MagnitudesNonneg Float := by
  intro entry tolerance negative
  have unsigned : Unsigned entry.abs.toModel.unpack := unsigned_unpack (unpackSign_pack_abs _)
  show ¬ entry.abs ≤ tolerance
  rw [le_iff_unpacked, le_eq_false_of_unsigned unsigned (lt_iff_unpacked.mp negative)]
  exact Bool.false_ne_true

end FloatEntries

end AffineArrays
