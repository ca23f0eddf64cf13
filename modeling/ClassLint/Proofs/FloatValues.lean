import ClassLint.Decimal.Shortest
import Mathlib.Algebra.Order.Field.Power
import Mathlib.Algebra.Order.Ring.Rat
import Mathlib.Tactic.Linarith
import Mathlib.Tactic.Positivity

/-!
# The numbers that bit patterns stand for

A finite bit pattern of a binary format stands for a rational number.  This file
finds the patterns that stand for zero, of which there are two, and for one, of
which there is a single one.
-/

namespace ClassLint

namespace Decimal

/-- The number that a value stands for, unless it is infinite or not a number. -/
def FloatValue.rational? : FloatValue → Option ℚ
  | .finite negative significand exponent _ =>
      some ((if negative then -1 else 1) * (significand * (2 : ℚ) ^ exponent))
  | _ => none

theorem FloatValue.rational?_finite_eq_zero_iff {negative narrow : Bool} {significand : Nat}
    {exponent : Int} :
    (FloatValue.finite negative significand exponent narrow).rational? = some 0 ↔
      significand = 0 := by
  have power_ne_zero : (2 : ℚ) ^ exponent ≠ 0 := zpow_ne_zero _ two_ne_zero
  cases negative <;> simp [rational?, power_ne_zero]

theorem FloatValue.rational?_finite_eq_one_iff {negative narrow : Bool} {significand : Nat}
    {exponent : Int} :
    (FloatValue.finite negative significand exponent narrow).rational? = some 1 ↔
      negative = false ∧ (significand : ℚ) * 2 ^ exponent = 1 := by
  cases negative with
  | false => simp [rational?]
  | true =>
      have nonneg : 0 ≤ (significand : ℚ) * 2 ^ exponent := by positivity
      have negated : -((significand : ℚ) * 2 ^ exponent) ≠ 1 := by
        intro sizeEq
        linarith
      simpa [rational?] using negated

@[simp]
theorem cast_signed (negative : Bool) (size : Nat) :
    (signed negative size : ℚ) = (if negative then -1 else 1) * size := by
  cases negative <;> simp [signed]

/-- Values are compared by the numbers they stand for. -/
theorem FloatValue.equals_finite_iff (value : FloatValue) {negative narrow : Bool}
    {significand : Nat} {exponent : Int} :
    value.equals (.finite negative significand exponent narrow) = true ↔
      value.rational? = (FloatValue.finite negative significand exponent narrow).rational? := by
  cases value with
  | notANumber | infinite _ => simp [equals, rational?]
  | finite ownNegative ownSignificand ownExponent _ =>
      have power_ne_zero (lower : Int) : (2 : ℚ) ^ lower ≠ 0 := zpow_ne_zero _ two_ne_zero
      -- The lower one of the exponents is taken out of both numbers.
      have split (first second : Int) : (2 : ℚ) ^ first =
          2 ^ (first - second).toNat * 2 ^ min first second := by
        rw [← zpow_natCast, ← zpow_add₀ two_ne_zero]
        congr 1
        omega
      rw [rational?, rational?, Option.some.injEq, split ownExponent exponent,
        split exponent ownExponent, min_comm exponent, ← mul_assoc, ← mul_assoc, ← mul_assoc,
        ← mul_assoc, mul_left_inj' (power_ne_zero _), equals, beq_iff_eq,
        ← @Int.cast_inj ℚ]
      simp

/-- A significand of full length makes one only if it is the least one and the
exponent makes up for it. -/
theorem scaled_eq_one_iff {width significand : Nat} (long : 2 ^ width ≤ significand)
    (short : significand < 2 ^ (width + 1)) (exponent : Int) :
    (significand : ℚ) * 2 ^ exponent = 1 ↔ significand = 2 ^ width ∧ exponent = -width := by
  constructor
  · intro product
    have significandEq : (significand : ℚ) = 2 ^ (-exponent) := by
      rw [zpow_neg]
      exact eq_inv_of_mul_eq_one_left product
    have lower : (2 : ℚ) ^ (width : Int) ≤ 2 ^ (-exponent) := by
      rw [← significandEq, zpow_natCast]
      exact_mod_cast long
    have upper : (2 : ℚ) ^ (-exponent) < 2 ^ (width + 1 : Int) := by
      rw [← significandEq, ← Nat.cast_add_one, zpow_natCast]
      exact_mod_cast short
    rw [zpow_le_zpow_iff_right₀ one_lt_two] at lower
    rw [zpow_lt_zpow_iff_right₀ one_lt_two] at upper
    have exponentEq : exponent = -width := by omega
    refine ⟨?_, exponentEq⟩
    rw [exponentEq, neg_neg, zpow_natCast] at significandEq
    exact_mod_cast significandEq
  · rintro ⟨rfl, rfl⟩
    rw [zpow_neg, zpow_natCast]
    push_cast
    exact mul_inv_cancel₀ (pow_ne_zero _ two_ne_zero)

theorem scaled_ne_one_of_short {width significand : Nat} (short : significand < 2 ^ width)
    {exponent : Int} (small : exponent ≤ -width) : (significand : ℚ) * 2 ^ exponent ≠ 1 := by
  have bound : (significand : ℚ) < 2 ^ (-exponent) := by
    calc (significand : ℚ) < 2 ^ (width : Int) := by
          rw [zpow_natCast]
          exact_mod_cast short
      _ ≤ 2 ^ (-exponent) := zpow_le_zpow_right₀ one_le_two (by omega)
  intro product
  have significandEq : (significand : ℚ) = 2 ^ (-exponent) := by
    rw [zpow_neg]
    exact eq_inv_of_mul_eq_one_left product
  exact bound.ne significandEq

namespace BinaryFormat

variable {format : BinaryFormat} {bits : Nat}

theorem rational?_value_eq_zero_iff (wide : 1 ≤ format.exponentBits) :
    (format.value bits).rational? = some 0 ↔
      bits % 2 ^ (format.fractionBits + format.exponentBits) = 0 := by
  have parts : bits % 2 ^ (format.fractionBits + format.exponentBits) =
      bits % 2 ^ format.fractionBits +
        2 ^ format.fractionBits * (bits / 2 ^ format.fractionBits % 2 ^ format.exponentBits) := by
    rw [pow_add, Nat.mod_mul]
  have fractionPos : 0 < 2 ^ format.fractionBits := Nat.two_pow_pos _
  have twoFields : 2 ^ 1 ≤ 2 ^ format.exponentBits := Nat.pow_le_pow_right two_pos wide
  have power_ne_zero (exponent : Int) : (2 : ℚ) ^ exponent ≠ 0 := zpow_ne_zero _ two_ne_zero
  rw [parts]
  simp only [value, Nat.pow_eq]
  split
  · next top =>
    have positive : 0 < 2 ^ format.fractionBits * (2 ^ format.exponentBits - 1) :=
      Nat.mul_pos fractionPos (by omega)
    rw [top]
    split <;> simp [FloatValue.rational?] <;> omega
  · split
    · next bottom =>
      rw [FloatValue.rational?_finite_eq_zero_iff, bottom, Nat.mul_zero, Nat.add_zero]
    · next middle =>
      have positive : 0 < 2 ^ format.fractionBits *
          (bits / 2 ^ format.fractionBits % 2 ^ format.exponentBits) :=
        Nat.mul_pos fractionPos (Nat.pos_of_ne_zero middle)
      rw [FloatValue.rational?_finite_eq_zero_iff]
      omega

/-- A positive pattern without a fraction is given by its exponent field. -/
theorem eq_fractionless_iff {field : Nat} (isField : field < 2 ^ format.exponentBits)
    (fits : bits < 2 ^ (format.fractionBits + format.exponentBits + 1)) :
    bits = 2 ^ format.fractionBits * field ↔
      bits / 2 ^ (format.fractionBits + format.exponentBits) % 2 = 0 ∧
        bits / 2 ^ format.fractionBits % 2 ^ format.exponentBits = field ∧
        bits % 2 ^ format.fractionBits = 0 := by
  have fractionPos : 0 < 2 ^ format.fractionBits := Nat.two_pow_pos _
  rw [pow_add, ← Nat.div_div_eq_div_mul]
  constructor
  · rintro rfl
    rw [Nat.mul_div_cancel_left _ fractionPos, Nat.div_eq_of_lt isField,
      Nat.mod_eq_of_lt isField, Nat.mul_mod_right]
    exact ⟨rfl, rfl, rfl⟩
  · rintro ⟨positive, fieldEq, noFraction⟩
    have signLt : bits / 2 ^ format.fractionBits / 2 ^ format.exponentBits < 2 := by
      rw [Nat.div_div_eq_div_mul, ← pow_add]
      apply Nat.div_lt_of_lt_mul
      rwa [← pow_succ]
    have fieldLt : bits / 2 ^ format.fractionBits < 2 ^ format.exponentBits := by
      rw [← Nat.div_eq_zero_iff_lt (Nat.two_pow_pos _), ← Nat.mod_eq_of_lt signLt]
      exact positive
    rw [Nat.mod_eq_of_lt fieldLt] at fieldEq
    rw [← fieldEq]
    exact (Nat.mul_div_cancel' (Nat.dvd_of_mod_eq_zero noFraction)).symm

theorem rational?_value_eq_one_iff (wide : 2 ≤ format.exponentBits)
    (fits : bits < 2 ^ (format.fractionBits + format.exponentBits + 1)) :
    (format.value bits).rational? = some 1 ↔
      bits = 2 ^ format.fractionBits * (2 ^ (format.exponentBits - 1) - 1) := by
  have fractionLt : bits % 2 ^ format.fractionBits < 2 ^ format.fractionBits :=
    Nat.mod_lt _ (Nat.two_pow_pos _)
  have fieldsEq : 2 ^ format.exponentBits = 2 * 2 ^ (format.exponentBits - 1) := by
    rw [← pow_succ']
    congr 1
    omega
  have twoHalves : 2 ^ 1 ≤ 2 ^ (format.exponentBits - 1) :=
    Nat.pow_le_pow_right two_pos (by omega)
  rw [eq_fractionless_iff (by omega) fits]
  simp only [value, Nat.pow_eq]
  split
  · next top =>
    have notMiddle : 2 ^ format.exponentBits - 1 ≠ 2 ^ (format.exponentBits - 1) - 1 := by omega
    rw [top]
    split <;> simp [FloatValue.rational?, notMiddle]
  · split
    · next bottom =>
      have small : (2 : Int) - (2 ^ (format.exponentBits - 1) : Nat) - format.fractionBits ≤
          -format.fractionBits := by omega
      have notOne := scaled_ne_one_of_short fractionLt small
      have notMiddle : 0 ≠ 2 ^ (format.exponentBits - 1) - 1 := by omega
      rw [FloatValue.rational?_finite_eq_one_iff, bottom]
      simp only [notOne, notMiddle, and_false, false_and]
    · next middle =>
      have long : 2 ^ format.fractionBits ≤
        2 ^ format.fractionBits + bits % 2 ^ format.fractionBits := by omega
      have short : 2 ^ format.fractionBits + bits % 2 ^ format.fractionBits <
        2 ^ (format.fractionBits + 1) := by omega
      rw [FloatValue.rational?_finite_eq_one_iff, scaled_eq_one_iff long short]
      simp only [beq_eq_false_iff_ne]
      omega

end BinaryFormat

theorem single_rational?_iff (bits : UInt32) :
    (single.value bits.toNat).rational? ∈ [some 0, some 1] ↔
      bits ∈ [0x00000000, 0x80000000, 0x3F800000] := by
  have fits : bits.toNat < 2 ^ 32 := bits.toNat_lt
  have zeroIff : (single.value bits.toNat).rational? = some 0 ↔ bits.toNat % 2 ^ 31 = 0 :=
    BinaryFormat.rational?_value_eq_zero_iff (by decide)
  have oneIff : (single.value bits.toNat).rational? = some 1 ↔
      bits.toNat = 2 ^ 23 * (2 ^ 7 - 1) :=
    BinaryFormat.rational?_value_eq_one_iff (by decide) fits
  simp only [List.mem_cons, List.not_mem_nil, or_false, zeroIff, oneIff, ← UInt32.toNat_inj,
    UInt32.reduceToNat]
  omega

theorem double_rational?_iff (bits : UInt64) :
    (double.value bits.toNat).rational? ∈ [some 0, some 1] ↔
      bits ∈ [0x0000000000000000, 0x8000000000000000, 0x3FF0000000000000] := by
  have fits : bits.toNat < 2 ^ 64 := bits.toNat_lt
  have zeroIff : (double.value bits.toNat).rational? = some 0 ↔ bits.toNat % 2 ^ 63 = 0 :=
    BinaryFormat.rational?_value_eq_zero_iff (by decide)
  have oneIff : (double.value bits.toNat).rational? = some 1 ↔
      bits.toNat = 2 ^ 52 * (2 ^ 10 - 1) :=
    BinaryFormat.rational?_value_eq_one_iff (by decide) fits
  simp only [List.mem_cons, List.not_mem_nil, or_false, zeroIff, oneIff, ← UInt64.toNat_inj,
    UInt64.reduceToNat]
  omega

end Decimal

end ClassLint
