import Billing.Proofs.Money.Twice

set_option autoImplicit false

/-! # How accurate products are

A product of money and a number is rounded to 28 digits and then to cents. So it is off from the
exact product by 0.0055 units at most, and where the exact product has at most 28 digits it is
rounded once only; products with whole numbers are exact (`Money.multiply_accurate`).
-/

namespace Billing

open Decimal

namespace Money

variable {m p : Money} {factor : Given} {f : Decimal}

/-- The number of units. -/
def value (m : Money) : ℚ := m.amount.value

theorem value_toDecimal (m : Money) : m.amount.toDecimal.value = m.value :=
  Amount.value_toDecimal m.amount

theorem computes_scale (m : Money) (f : Decimal) :
    Computes (m.amount.toDecimal.mul f) (m.value * f.value) :=
  m.value_toDecimal ▸ computes_mul _ _

/-- A product has the sign of the exact one. -/
theorem signedCents_of_scale (h : m.scale f = .ok p) :
    p.amount.signedCents =
      SignType.sign (m.value * f.value) * centsOfNearest |m.value * f.value| := by
  obtain ⟨-, product, hproduct, hround⟩ := scale_eq_ok_iff.1 h
  exact (computes_scale m f).signedCents hproduct hround

theorem signedCents_of_scale_nonneg (h : m.scale f = .ok p) (hnonneg : 0 ≤ m.value * f.value) :
    p.amount.signedCents = centsOfNearest (m.value * f.value) := by
  obtain ⟨-, product, hproduct, hround⟩ := scale_eq_ok_iff.1 h
  exact (computes_scale m f).signedCents_of_nonneg hnonneg hproduct hround

/-- There is a product unless it has too many digits, be it as a decimal or as an amount. -/
theorem exists_scale_iff :
    (∃ p, m.scale f = .ok p) ↔ centsOfNearest |m.value * f.value| < 10 ^ 28 := by
  rw [← (computes_scale m f).exists_amount_iff]
  constructor
  · rintro ⟨p, h⟩
    obtain ⟨-, product, hproduct, hround⟩ := scale_eq_ok_iff.1 h
    exact ⟨product, p.amount, hproduct, hround⟩
  · rintro ⟨product, a, hproduct, hround⟩
    exact ⟨⟨a, m.currency⟩, scale_eq_ok_iff.2 ⟨rfl, product, hproduct, hround⟩⟩

theorem abs_value_sub_le (h : m.scale f = .ok p) : |p.value - m.value * f.value| ≤ 0.0055 := by
  obtain ⟨x, hx⟩ : ∃ x, x = m.value * f.value := ⟨_, rfl⟩
  have hfits := exists_scale_iff.1 ⟨p, h⟩
  have hcents := signedCents_of_scale h
  rw [← hx] at hfits hcents ⊢
  have hnear := abs_cents_sub_le (abs_nonneg x) hfits
  have hvalue : p.value - x = SignType.sign x * ((centsOfNearest |x| : ℚ) / 100 - |x|) := by
    rw [mul_sub, sign_mul_abs, value, Amount.value, hcents]
    push_cast
    ring
  have hsign : |((SignType.sign x : SignType) : ℚ)| ≤ 1 := by
    cases SignType.sign x <;> simp
  calc |p.value - x|
      = |((SignType.sign x : SignType) : ℚ)| * |((centsOfNearest |x| : ℚ) / 100 - |x|)| := by
        rw [hvalue, abs_mul]
    _ ≤ 1 * 0.0055 := mul_le_mul hsign hnear (abs_nonneg _) zero_le_one
    _ = 0.0055 := one_mul _

/-- With few digits, products are rounded once. -/
theorem scale_of_fewDigits (few : FewDigits (m.value * f.value)) :
    ((∃ p, m.scale f = .ok p) ↔ |inCents (m.value * f.value)| < 10 ^ 28) ∧
      ∀ p, m.scale f = .ok p → p.amount.signedCents = inCents (m.value * f.value) := by
  have hcents := cents_of_fewDigits (abs_nonneg _) few.abs
  constructor
  · rw [exists_scale_iff, hcents, abs_inCents]
  · intro p h
    rw [signedCents_of_scale h, hcents, inCents]

/-- Cents times a whole number are cents again. -/
theorem scale_of_whole {n : ℤ} (whole : f.value = n) :
    ((∃ p, m.scale f = .ok p) ↔ |m.amount.signedCents * n| < 10 ^ 28) ∧
      ∀ p, m.scale f = .ok p → p.amount.signedCents = m.amount.signedCents * n := by
  have hproduct : m.value * f.value = ((m.amount.signedCents * n : ℤ) : ℚ) / 100 := by
    rw [whole, value, Amount.value]
    push_cast
    ring
  by_cases hfits : |m.amount.signedCents * n| < 10 ^ 28
  · have few : FewDigits (m.value * f.value) := by
      refine ⟨_, -2, hfits, ?_⟩
      rw [hproduct]
      norm_num
      ring
    have hcents : inCents (m.value * f.value) = m.amount.signedCents * n := by
      rw [hproduct, inCents_intCast_div]
    have honce := scale_of_fewDigits few
    rwa [hcents] at honce
  · have hlarge : (10 : ℚ) ^ (26 : ℤ) ≤ |m.value * f.value| := by
      have hcents : ((10 ^ 28 : ℤ) : ℚ) ≤ |((m.amount.signedCents * n : ℤ) : ℚ)| := by
        exact_mod_cast not_lt.1 hfits
      rw [hproduct, abs_div, abs_of_pos (by norm_num : (0 : ℚ) < 100), le_div_iff₀ (by norm_num)]
      norm_num at hcents ⊢
      exact hcents
    have hnone : ¬ ∃ p, m.scale f = .ok p := by
      rw [exists_scale_iff]
      exact (le_centsOfNearest hlarge).not_gt
    exact ⟨iff_of_false hnone hfits, fun p h => absurd ⟨p, h⟩ hnone⟩

/-- Products are as near to the exact ones as two roundings allow. Where the exact product has at
most 28 significant digits, it is rounded to cents and nothing else, and it is refused exactly if it
has too many of them; so a product with a whole number is exact, or it is refused. -/
theorem multiply_accurate (h : factor.toDecimal "factor" = .ok f) :
    (∀ p, m.multiply factor = .ok p →
      p.currency = m.currency ∧ |p.value - m.value * f.value| ≤ 0.0055) ∧
    (FewDigits (m.value * f.value) →
      ((∃ p, m.multiply factor = .ok p) ↔ |inCents (m.value * f.value)| < 10 ^ 28) ∧
      ∀ p, m.multiply factor = .ok p → p.amount.signedCents = inCents (m.value * f.value)) ∧
    (∀ n : ℤ, f.value = n →
      ((∃ p, m.multiply factor = .ok p) ↔ |m.amount.signedCents * n| < 10 ^ 28) ∧
      ∀ p, m.multiply factor = .ok p → p.amount.signedCents = m.amount.signedCents * n) := by
  have hscale : m.multiply factor = m.scale f := by
    rw [multiply, h]
    rfl
  rw [hscale]
  refine ⟨fun p hp => ⟨?_, abs_value_sub_le hp⟩, scale_of_fewDigits, fun n => scale_of_whole⟩
  exact (scale_eq_ok_iff.1 hp).1

/-- An eighth of a unit less than nothing goes away from zero. -/
theorem multiply_accurate_sample :
    (Given.text "2.5").toDecimal "factor" = .ok ⟨false, 25, -1⟩ ∧
      ∃ p, multiply ⟨⟨true, 5, by decide⟩, .usd⟩ (.text "2.5") = .ok p ∧
        |p.value - -1 / 8| ≤ 0.0055 ∧ p.amount.signedCents = inCents (-1 / 8) ∧
        inCents (-1 / 8) = -13 := by
  have h : (Given.text "2.5").toDecimal "factor" = .ok ⟨false, 25, -1⟩ := by decide +kernel
  obtain ⟨hnear, hfew, -⟩ := multiply_accurate (m := ⟨⟨true, 5, by decide⟩, .usd⟩) h
  have hproduct : value ⟨⟨true, 5, by decide⟩, .usd⟩ * Decimal.value ⟨false, 25, -1⟩ = -1 / 8 := by
    norm_num [value, Amount.value, Amount.signedCents, Decimal.value, size]
  rw [hproduct] at hnear hfew
  have hcents : inCents (-1 / 8) = -13 := by
    have hround : roundHalfUp (1 / 8 * 100) = 13 := by
      rw [roundHalfUp_eq_iff]
      norm_num
    rw [neg_div, inCents_neg, inCents_of_nonneg (by norm_num), hround]
  obtain ⟨hfits, hexact⟩ := hfew ⟨-125, -3, by decide, by norm_num⟩
  obtain ⟨p, hp⟩ := hfits.2 (by rw [hcents]; decide)
  exact ⟨h, p, hp, (hnear p hp).2, hexact p hp, hcents⟩

end Money

end Billing
