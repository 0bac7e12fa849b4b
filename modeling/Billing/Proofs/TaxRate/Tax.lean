import Billing.Proofs.Coded
import Billing.Proofs.Given
import Billing.Proofs.Money.Product

set_option autoImplicit false

/-! # Tax is bounded and monotone

Three roundings lie between an amount and the tax on it: the product with the percentage and a
hundredth of that product have 28 digits, and the tax has cents (`TaxRate.taxCents`). Each of them
keeps the order, and an amount that is taxed at a hundred per cent goes through all three as it is.
So the tax is at most the amount, and it does not become less when the amount or the rate becomes
more (`TaxRate.tax_bounded_monotone`).
-/

namespace Billing

open Decimal

namespace TaxRate

variable {t : TaxRate} {a : Amount} {m : Money} {base base' rate rate' : ℚ}

/-! ## Three roundings -/

/-- The cents of the tax on a number of units at a percentage. -/
def taxCents (base rate : ℚ) : ℤ := centsOfNearest (nearest (base * rate) / 100)

theorem share_nonneg (hbase : 0 ≤ base) (hrate : 0 ≤ rate) : 0 ≤ nearest (base * rate) / 100 :=
  div_nonneg (nearest_nonneg (mul_nonneg hbase hrate)) (by norm_num)

theorem taxCents_mono (hbase : 0 ≤ base) (hrate : 0 ≤ rate) (hbase' : base ≤ base')
    (hrate' : rate ≤ rate') : taxCents base rate ≤ taxCents base' rate' := by
  have hproduct : base * rate ≤ base' * rate' := mul_le_mul hbase' hrate' hrate (hbase.trans hbase')
  have hnearest : nearest (base * rate) ≤ nearest (base' * rate') :=
    nearest_mono (mul_nonneg hbase hrate) hproduct
  exact centsOfNearest_mono (share_nonneg hbase hrate)
    (div_le_div_of_nonneg_right hnearest (by norm_num))

theorem taxCents_nonneg (hbase : 0 ≤ base) (hrate : 0 ≤ rate) : 0 ≤ taxCents base rate := by
  have hnearest := nearest_nonneg (share_nonneg hbase hrate)
  rw [taxCents, centsOfNearest, le_roundHalfUp_iff]
  push_cast
  linarith

/-- At a hundred per cent, the tax is all of the amount. -/
theorem taxCents_hundred (h : 0 ≤ a.value) : taxCents a.value 100 = a.signedCents := by
  obtain ⟨c, hc⟩ := Int.eq_ofNat_of_zero_le (Amount.value_nonneg_iff.1 h)
  have hlt : c < tenTo precision := by
    have hlt := a.natAbs_signedCents_lt
    rwa [hc] at hlt
  have hvalue : a.value = c / 100 := by rw [Amount.value, hc, Int.cast_natCast]
  have hproduct : nearest (a.value * 100) = c := by
    rw [hvalue, div_mul_cancel₀ _ (by norm_num)]
    have hwhole := nearest_eq_self hlt (show tinyExponent ≤ 0 by decide)
    rwa [zpow_zero, mul_one] at hwhole
  have hfew : FewDigits (c / 100) := by
    refine ⟨c, -2, ?_, ?_⟩
    · rw [Nat.abs_cast, ← Amount.tenTo_precision]
      exact_mod_cast hlt
    · norm_num
      ring
  rw [taxCents, hproduct, cents_of_fewDigits (by positivity) hfew,
    div_mul_cancel₀ _ (by norm_num), ← Int.cast_natCast, roundHalfUp_intCast, hc]

theorem taxCents_le (h : 0 ≤ a.value) (t : TaxRate) :
    taxCents a.value t.rate.value ≤ a.signedCents := by
  calc taxCents a.value t.rate.value ≤ taxCents a.value 100 :=
        taxCents_mono h t.rate_nonneg le_rfl t.rate_le
    _ = a.signedCents := taxCents_hundred h

/-! ## The tax on an amount -/

/-- There is a tax on each amount that is not below zero. -/
theorem exists_taxOn (h : 0 ≤ a.value) (t : TaxRate) :
    ∃ tax, t.taxOn a.toDecimal = .ok tax ∧
      tax.signedCents = taxCents a.value t.rate.value := by
  have hnonneg : 0 ≤ a.value * t.rate.value := mul_nonneg h t.rate_nonneg
  have hproduct : Computes (a.toDecimal.mul t.rate) (a.value * t.rate.value) :=
    a.value_toDecimal ▸ computes_mul _ _
  have hlimit : |a.value * t.rate.value| < overflowLimit := by
    rw [abs_mul, ← a.value_toDecimal, Decimal.abs_value, Decimal.abs_value]
    exact t.size_mul_lt a
  obtain ⟨product, hmul⟩ := hproduct.exists_eq_ok hlimit
  have hshare : Computes (product.div hundred) (nearest (a.value * t.rate.value) / 100) := by
    have hdiv : Computes (product.div hundred) (product.value / hundred.value) := computes_div rfl
    rwa [value_hundred, hproduct.value_of_nonneg hnonneg hmul] at hdiv
  have hfits : centsOfNearest |nearest (a.value * t.rate.value) / 100| < 10 ^ 28 := by
    have hle := taxCents_le h t
    have hlt := a.natAbs_signedCents_lt
    have hprecision := Amount.tenTo_precision
    rw [abs_of_nonneg (share_nonneg h t.rate_nonneg), ← taxCents]
    omega
  obtain ⟨share, tax, hdiv, hround⟩ := hshare.exists_amount_iff.2 hfits
  refine ⟨tax, taxOn_eq_ok_iff.2 ⟨product, share, hmul, hdiv, hround⟩, ?_⟩
  exact hshare.signedCents_of_nonneg (share_nonneg h t.rate_nonneg) hdiv hround

theorem exists_calculateTax (h : 0 ≤ m.value) (t : TaxRate) :
    ∃ tax, t.calculateTax (.decimal (.finite m.amount.toDecimal)) = .ok tax ∧
      tax.signedCents = taxCents m.value t.rate.value := by
  obtain ⟨tax, htax, hcents⟩ := exists_taxOn h t
  refine ⟨tax, ?_, hcents⟩
  rw [calculateTax, Given.toDecimal_finite, Except.ok_bind, htax]

/-- There is a tax on all money that is not below zero, at any rate. It is not below zero and not
above the amount, and neither more money nor a higher rate makes it less. -/
theorem tax_bounded_monotone (h : 0 ≤ m.value) (t : TaxRate) :
    ∃ tax, t.calculateTax (.decimal (.finite m.amount.toDecimal)) = .ok tax ∧
      0 ≤ tax.value ∧ tax.value ≤ m.value ∧
      ∀ (m' : Money) (t' : TaxRate), m.value ≤ m'.value → t.rate.value ≤ t'.rate.value →
        ∃ tax', t'.calculateTax (.decimal (.finite m'.amount.toDecimal)) = .ok tax' ∧
          tax.value ≤ tax'.value := by
  obtain ⟨tax, htax, hcents⟩ := exists_calculateTax h t
  refine ⟨tax, htax, ?_, ?_, fun m' t' hm ht => ?_⟩
  · exact Amount.value_nonneg_iff.2 (hcents ▸ taxCents_nonneg h t.rate_nonneg)
  · exact Amount.value_le_iff.2 (hcents ▸ taxCents_le h t)
  · obtain ⟨tax', htax', hcents'⟩ := exists_calculateTax (h.trans hm) t'
    refine ⟨tax', htax', ?_⟩
    rw [Amount.value_le_iff, hcents, hcents']
    exact taxCents_mono h t.rate_nonneg hm ht

/-- Next to nothing less than a hundred per cent. -/
def sampleRateOfNines : TaxRate :=
  ⟨⟨false, 9999999999999999999999999999999999999999, -38⟩, .vat, by decide +kernel⟩

/-- A hundred per cent. -/
def sampleRateOfAll : TaxRate := ⟨.hundred, .gst, by decide +kernel⟩

/-- With a rate that has more digits than are computed with, all of the largest amount is tax. -/
theorem tax_bounded_monotone_sample :
    0 ≤ Money.value ⟨.largest, .usd⟩ ∧
      sampleRateOfNines.rate.value ≤ sampleRateOfAll.rate.value ∧
      ∃ tax tax', sampleRateOfNines.calculateTax
          (.decimal (.finite Amount.largest.toDecimal)) = .ok tax ∧
        tax = .largest ∧ tax.value ≤ Money.value ⟨.largest, .usd⟩ ∧
        sampleRateOfAll.calculateTax (.decimal (.finite Amount.largest.toDecimal)) = .ok tax' ∧
        tax.value ≤ tax'.value := by
  have hmoney : 0 ≤ Money.value ⟨.largest, .usd⟩ := Amount.value_nonneg_iff.2 (by decide)
  have hrates : sampleRateOfNines.rate.value ≤ sampleRateOfAll.rate.value :=
    le_iff.1 (by decide +kernel)
  have hcomputed : sampleRateOfNines.calculateTax (.decimal (.finite Amount.largest.toDecimal)) =
      .ok .largest := by
    decide +kernel
  obtain ⟨tax, htax, -, hle, hmono⟩ := tax_bounded_monotone hmoney sampleRateOfNines
  obtain ⟨tax', htax', hle'⟩ := hmono ⟨.largest, .usd⟩ sampleRateOfAll le_rfl hrates
  exact ⟨hmoney, hrates, tax, tax', htax, Except.ok.inj (htax.symm.trans hcomputed), hle, htax',
    hle'⟩

end TaxRate

end Billing
