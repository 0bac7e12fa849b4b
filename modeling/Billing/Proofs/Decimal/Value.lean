import Billing.Proofs.Decimal.Overflow

set_option autoImplicit false

/-! # The value of a decimal

A decimal stands for a rational number (`Decimal.value`), whose size is known already. Decimals are
compared digit by digit, but it is their values that are compared (`Decimal.cmp_eq`): trailing zeros
and the sign of zero do not count.
-/

namespace Billing

namespace Decimal

variable {a b d : Decimal}

/-- The rational number that a decimal stands for. -/
def value (d : Decimal) : ℚ := if d.negative then -d.size else d.size

theorem abs_value (d : Decimal) : |d.value| = d.size := by
  unfold value
  split
  · rw [abs_neg, abs_of_nonneg d.size_nonneg]
  · exact abs_of_nonneg d.size_nonneg

theorem value_ofInt (n : Int) : (ofInt n).value = n := by
  have hsign : (ofInt n).negative = decide (n < 0) := rfl
  rw [value, size_ofInt, Nat.cast_natAbs, hsign]
  rcases lt_or_ge n 0 with hneg | hnonneg
  · rw [decide_eq_true hneg, if_pos rfl, abs_of_neg hneg, Int.cast_neg, neg_neg]
  · rw [decide_eq_false hnonneg.not_gt, if_neg Bool.false_ne_true, abs_of_nonneg hnonneg]

theorem value_zero : zero.value = 0 := by
  norm_num [value, size, zero]

theorem value_hundred : hundred.value = 100 := by
  norm_num [value, size, hundred]

theorem size_eq_zero_iff : d.size = 0 ↔ d.isZero = true := by
  rw [size, mul_eq_zero, or_iff_left (ten_zpow_pos _).ne', Nat.cast_eq_zero, isZero,
    decide_eq_true_iff]

theorem size_pos (h : d.isZero = false) : 0 < d.size :=
  lt_of_le_of_ne d.size_nonneg fun hzero => by simp [size_eq_zero_iff.1 hzero.symm] at h

/-! ## Comparing sizes -/

/-- A decimal other than zero is not below the unit of its leading digit. -/
theorem le_size (h : d.isZero = false) : (10 : ℚ) ^ d.adjusted ≤ d.size := by
  have hlower := (Digits.cast_between (coefficient_pos h)).1
  have hexponent : d.adjusted = (d.digits : Int) - 1 + d.exponent := by
    rw [adjusted]
    omega
  rw [hexponent, ten_zpow_add, size]
  exact mul_le_mul_of_nonneg_right hlower (ten_zpow_pos _).le

/-- The unit of the leading digit decides, if it is not the same. -/
theorem size_lt_size_of_adjusted_lt (hb : b.isZero = false) (h : a.adjusted < b.adjusted) :
    a.size < b.size := by
  calc a.size < 10 ^ (a.adjusted + 1) := a.size_lt
    _ ≤ 10 ^ b.adjusted := ten_zpow_le_iff.2 h
    _ ≤ b.size := le_size hb

theorem size_eq_coefficientAt {e : Int} (h : e ≤ d.exponent) :
    d.size = d.coefficientAt e * (10 : ℚ) ^ e := by
  have hshift : ((d.exponent - e).toNat : Int) + e = d.exponent := by omega
  rw [coefficientAt, Nat.cast_mul, cast_tenTo, mul_assoc, ← ten_zpow_add, hshift, size]

/-- Coefficients at one exponent compare as the sizes do. -/
theorem compare_coefficientAt {e : Int} (ha : e ≤ a.exponent) (hb : e ≤ b.exponent) :
    compare (a.coefficientAt e) (b.coefficientAt e) = compare a.size b.size := by
  have hmono : StrictMono fun n : ℕ => (n : ℚ) * 10 ^ e :=
    Nat.strictMono_cast.mul_const (ten_zpow_pos e)
  rw [size_eq_coefficientAt ha, size_eq_coefficientAt hb, ← cmp_eq_compare, ← cmp_eq_compare]
  exact (hmono.cmp_map_eq _ _).symm

theorem cmpMagnitude_eq (a b : Decimal) : cmpMagnitude a b = compare a.size b.size := by
  cases ha : a.isZero with
  | true =>
      -- zero is below everything but zero
      have hcoefficient : a.coefficient = 0 := of_decide_eq_true ha
      rw [cmpMagnitude, ha, Bool.true_or, if_pos rfl, hcoefficient, size_eq_zero_iff.2 ha]
      cases hb : b.isZero with
      | true =>
          have hcoefficient' : b.coefficient = 0 := of_decide_eq_true hb
          rw [hcoefficient', size_eq_zero_iff.2 hb]
          rfl
      | false =>
          rw [compare_lt_iff_lt.2 (coefficient_pos hb), compare_lt_iff_lt.2 (size_pos hb)]
  | false =>
      cases hb : b.isZero with
      | true =>
          have hcoefficient : b.coefficient = 0 := of_decide_eq_true hb
          rw [cmpMagnitude, hb, Bool.or_true, if_pos rfl, hcoefficient, size_eq_zero_iff.2 hb,
            compare_gt_iff_gt.2 (coefficient_pos ha), compare_gt_iff_gt.2 (size_pos ha)]
      | false =>
          rw [cmpMagnitude, ha, hb, Bool.or_false, if_neg Bool.false_ne_true]
          rcases lt_trichotomy a.adjusted b.adjusted with hlt | heq | hgt
          · rw [compare_lt_iff_lt.2 hlt]
            exact (compare_lt_iff_lt.2 (size_lt_size_of_adjusted_lt hb hlt)).symm
          · rw [compare_eq_iff_eq.2 heq]
            exact compare_coefficientAt (min_le_left _ _) (min_le_right _ _)
          · rw [compare_gt_iff_gt.2 hgt]
            exact (compare_gt_iff_gt.2 (size_lt_size_of_adjusted_lt ha hgt)).symm

/-! ## Comparing values -/

theorem isNegative_iff : d.isNegative = true ↔ d.value < 0 := by
  unfold value isNegative
  cases hsign : d.negative with
  | false => simpa using d.size_nonneg
  | true =>
      have hpos : 0 < d.size ↔ d.isZero = false := by
        rw [← Bool.not_eq_true, ← size_eq_zero_iff, d.size_nonneg.lt_iff_ne, ne_comm]
      simp [hpos]

theorem value_of_isNegative (h : d.isNegative = true) : d.value = -d.size := by
  rw [← abs_value, abs_of_neg (isNegative_iff.1 h), neg_neg]

theorem value_of_not_isNegative (h : d.isNegative = false) : d.value = d.size := by
  have hnonneg : 0 ≤ d.value := by
    rw [← not_lt, ← isNegative_iff, h]
    exact Bool.false_ne_true
  rw [← abs_value, abs_of_nonneg hnonneg]

theorem cmp_eq (a b : Decimal) : cmp a b = compare a.value b.value := by
  unfold cmp
  cases ha : a.isNegative with
  | false =>
      cases hb : b.isNegative with
      | false =>
          rw [value_of_not_isNegative ha, value_of_not_isNegative hb]
          exact cmpMagnitude_eq a b
      | true =>
          have hlt : b.value < a.value := by
            rw [value_of_not_isNegative ha]
            exact (isNegative_iff.1 hb).trans_le a.size_nonneg
          exact (compare_gt_iff_gt.2 hlt).symm
  | true =>
      cases hb : b.isNegative with
      | false =>
          have hlt : a.value < b.value := by
            rw [value_of_not_isNegative hb]
            exact (isNegative_iff.1 ha).trans_le b.size_nonneg
          exact (compare_lt_iff_lt.2 hlt).symm
      | true =>
          -- below zero, the greater size is the lesser value
          have hneg : StrictAnti fun x : ℚ => -x := fun x y h => neg_lt_neg h
          rw [value_of_isNegative ha, value_of_isNegative hb, ← cmp_eq_compare]
          exact (cmpMagnitude_eq b a).trans ((cmp_eq_compare _ _).symm.trans
            (hneg.cmp_map_eq a.size b.size).symm)

theorem same_iff : a.same b = true ↔ a.value = b.value := by
  rw [same, cmp_eq, beq_iff_eq, compare_eq_iff_eq]

theorem le_iff : a.le b = true ↔ a.value ≤ b.value := by
  rw [le, cmp_eq, bne_iff_ne, compare_le_iff_le]

end Decimal

end Billing
