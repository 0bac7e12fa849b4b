import Billing.Proofs.Decimal.Nearest
import Billing.Proofs.Money.Sum

set_option autoImplicit false

/-! # Money scaled by a decimal

A product of money and a decimal is rounded twice, to 28 digits as a decimal and then to cents. What
it comes to depends on the exact product alone (`Money.scale_eq_ok`).
-/

namespace Billing

namespace Amount

variable {d : Decimal} {a : Amount}

/-- A half cent goes up. -/
theorem scaled_awayFromZero (d : Decimal) :
    (d.scaled .awayFromZero 2 : ℤ) = roundHalfUp (d.size * 100) := by
  rw [Decimal.scaled]
  split
  next hzero =>
    have hnone : d.size = 0 := Decimal.size_of_coefficient_eq_zero (of_decide_eq_true hzero)
    rw [hnone, zero_mul, eq_comm, roundHalfUp_eq_iff]
    norm_num
  next =>
    rw [scaleRound_awayFromZero d.coefficient Nat.one_pos, Nat.cast_one, div_one,
      ten_zpow_add, ← mul_assoc, Decimal.size]
    norm_num

/-- Rounding to cents is rounding of the value. -/
theorem cents_of_round (h : Amount.round d = .ok a) :
    (a.cents : ℤ) = roundHalfUp (d.size * 100) := by
  rw [(eq_of_round h).2, scaled_awayFromZero]

theorem size_toDecimal (a : Amount) : a.toDecimal.size = a.cents * (10 : ℚ) ^ (-2 : ℤ) := rfl

end Amount

namespace Money

variable {m p : Money} {factor : Decimal}

/-- A product that is not too near to zero has the cents that the rounded product of cents has. -/
theorem scale_eq_ok (h : m.scale factor = .ok p)
    (hlarge : (10 : ℚ) ^ (-2 : ℤ) ≤ m.amount.cents * factor.size) :
    p.currency = m.currency ∧
      (p.amount.cents : ℤ) = roundHalfUp (Decimal.nearest (m.amount.cents * factor.size)) := by
  obtain ⟨hcurrency, product, hproduct, hround⟩ := scale_eq_ok_iff.1 h
  refine ⟨hcurrency, ?_⟩
  have hunits : (10 : ℚ) ^ Decimal.minExponent ≤ m.amount.cents * factor.size * 10 ^ (-2 : ℤ) := by
    refine (ten_zpow_le_iff.2 (by decide : Decimal.minExponent ≤ -2 + -2)).trans ?_
    rw [ten_zpow_add]
    exact mul_le_mul_of_nonneg_right hlarge (ten_zpow_pos _).le
  have hsize : product.size = Decimal.nearest (m.amount.cents * factor.size) * 10 ^ (-2 : ℤ) := by
    rw [Decimal.size_of_mul hproduct, Amount.size_toDecimal, mul_right_comm,
      Decimal.nearest_mul_zpow ((ten_zpow_le_iff.2 (by decide)).trans hlarge) hunits]
  have hcents : product.size * 100 = Decimal.nearest (m.amount.cents * factor.size) := by
    rw [hsize, mul_assoc]
    norm_num
  rw [Amount.cents_of_round hround, hcents]

end Money

end Billing
