import Billing.Proofs.Invoice.TaxLines
import Billing.Proofs.TaxRate.Tax

set_option autoImplicit false

/-! # The tax on the items and the tax on the whole

The tax on an invoice is added up from the taxes on its items, each of which is rounded on its own.
Below `10 ^ 20` units a tax is off by 0.51 cents at most (`TaxRate.abs_taxCents_sub_le`): half a
cent for rounding to cents, and the two roundings to 28 digits are far less than the rest. The sum
over the items is off by as much for each of them (`Invoice.abs_centsIn_tax_sub_le`), and the tax on
the subtotal by as much again, so the two are not far apart (`Invoice.tax_drift_le`).
-/

namespace Billing

open Decimal

/-- How far a tax is from the exact one. -/
theorem TaxRate.abs_taxCents_sub_le {base rate : ℚ} (hbase : 0 ≤ base) (hsmall : base < 10 ^ 20)
    (hrate : 0 ≤ rate) (hpercentage : rate ≤ 100) :
    |(taxCents base rate : ℚ) - base * rate| ≤ 0.51 := by
  have hnonneg : 0 ≤ base * rate := mul_nonneg hbase hrate
  have hproduct : base * rate < 10 ^ (22 : ℤ) := by
    calc base * rate ≤ base * 100 := mul_le_mul_of_nonneg_left hpercentage hbase
      _ < 10 ^ 20 * 100 := mul_lt_mul_of_pos_right hsmall (by norm_num)
      _ = 10 ^ (22 : ℤ) := by norm_num
  have hshare : nearest (base * rate) / 100 < 10 ^ (21 : ℤ) := by
    have hle := nearest_le_zpow (by decide) hnonneg hproduct.le
    norm_num at hle ⊢
    linarith
  have hfirst := abs_le.1 (abs_nearest_sub_le_of_lt hnonneg hproduct (by decide))
  have hsecond := abs_le.1
    (abs_nearest_sub_le_of_lt (share_nonneg hbase hrate) hshare (by decide))
  have hcents := abs_le.1
    (abs_roundHalfUp_sub_le (nearest (nearest (base * rate) / 100) * 100))
  rw [← centsOfNearest, ← taxCents] at hcents
  norm_num [precision] at hfirst hsecond
  rw [abs_le]
  constructor <;> linarith

namespace LineItem

variable {i : LineItem} {m : Money}

/-- An item that has a subtotal has a tax. -/
theorem exists_tax (h : i.subtotal = .ok m) :
    ∃ tax, i.tax = .ok tax ∧
      tax.amount.signedCents = TaxRate.taxCents m.value i.taxRate.rate.value := by
  have hnonneg : 0 ≤ m.amount.value := Amount.value_nonneg_iff.2 (subtotal_nonneg h)
  obtain ⟨tax, htax, hcents⟩ := TaxRate.exists_taxOn hnonneg i.taxRate
  exact ⟨⟨tax, m.currency⟩, tax_eq_ok_iff.2 ⟨m, tax, h, htax, rfl⟩, hcents⟩

theorem centsOf_tax (h : i.subtotal = .ok m) :
    Money.centsOf i.tax = TaxRate.taxCents m.value i.taxRate.rate.value := by
  obtain ⟨tax, htax, hcents⟩ := exists_tax h
  rw [htax, Money.centsOf, hcents]

end LineItem

namespace Invoice

variable {inv : Invoice} {items : List LineItem} {i : LineItem} {subtotal : Money} {t : TaxRate}
  {rate : ℚ}

/-! ## Subtotals and their tax -/

/-- There is no more tax than there is to be taxed. -/
theorem centsIn_tax_le (h : ∀ i ∈ items, ∃ m, i.subtotal = .ok m) :
    centsIn LineItem.tax items ≤ centsIn LineItem.subtotal items := by
  refine List.sum_le_sum fun i hi => ?_
  obtain ⟨m, hm⟩ := h i hi
  rw [LineItem.centsOf_tax hm, hm]
  exact TaxRate.taxCents_le (Amount.value_nonneg_iff.2 (LineItem.subtotal_nonneg hm)) i.taxRate

/-- An invoice that has a subtotal has a total tax. -/
theorem exists_totalTax (h : inv.subtotal = .ok subtotal) : ∃ tax, inv.totalTax = .ok tax := by
  obtain ⟨hitems, hfits⟩ := lineAmount_subtotal.exists_sumOf_iff.1 ⟨subtotal, h⟩
  refine lineAmount_tax.exists_sumOf_iff.2 ⟨fun i hi => ?_, ?_⟩
  · obtain ⟨hcurrency, m, hm⟩ := hitems i hi
    obtain ⟨tax, htax, -⟩ := LineItem.exists_tax hm
    exact ⟨hcurrency, tax, htax⟩
  · exact (centsIn_tax_le fun i hi => (hitems i hi).2).trans_lt hfits

theorem subtotal_nonneg (h : inv.subtotal = .ok subtotal) : 0 ≤ subtotal.value := by
  refine Amount.value_nonneg_iff.2 ?_
  rw [(lineAmount_subtotal.sumOf_eq_ok_iff.1 h).2.2.2]
  exact lineAmount_subtotal.centsIn_nonneg inv.items

/-- No item comes to more than the whole. -/
theorem value_le_of_mem (h : inv.subtotal = .ok subtotal) (hi : i ∈ inv.items) :
    ∃ m, i.subtotal = .ok m ∧ m.value ≤ subtotal.value := by
  obtain ⟨hitems, -, -, hcents⟩ := lineAmount_subtotal.sumOf_eq_ok_iff.1 h
  obtain ⟨-, m, hm⟩ := hitems i hi
  have hle := lineAmount_subtotal.centsOf_le_centsIn hi
  rw [hm, ← hcents] at hle
  exact ⟨m, hm, Amount.value_le_iff.2 hle⟩

/-! ## Adding up -/

/-- The errors of the items add up. -/
theorem abs_centsIn_tax_sub_le (hrates : ∀ i ∈ items, i.taxRate.rate.value = rate)
    (hitems : ∀ i ∈ items, ∃ m, i.subtotal = .ok m ∧ m.value < 10 ^ 20) :
    |(centsIn LineItem.tax items : ℚ) - centsIn LineItem.subtotal items / 100 * rate| ≤
      0.51 * items.length := by
  induction items with
  | nil => simp
  | cons i items ih =>
      obtain ⟨hrate, hrates⟩ := List.forall_mem_cons.1 hrates
      obtain ⟨⟨m, hm, hsmall⟩, hitems⟩ := List.forall_mem_cons.1 hitems
      have hitem : |(Money.centsOf i.tax : ℚ) - Money.centsOf i.subtotal / 100 * rate| ≤ 0.51 := by
        rw [LineItem.centsOf_tax hm, hm, ← hrate]
        exact TaxRate.abs_taxCents_sub_le (Amount.value_nonneg_iff.2 (LineItem.subtotal_nonneg hm))
          hsmall i.taxRate.rate_nonneg i.taxRate.rate_le
      have hrest := ih hrates hitems
      rw [centsIn_cons, centsIn_cons, List.length_cons]
      rw [abs_le] at hitem hrest ⊢
      push_cast
      constructor <;> linarith

/-- The total tax of an invoice whose items have one rate, and the tax on its subtotal, in cents. -/
theorem abs_totalTax_sub_le {sum : Money} {tax : Amount}
    (hrates : ∀ i ∈ inv.items, i.taxRate.same t = true) (h : inv.subtotal = .ok subtotal)
    (hsmall : subtotal.value < 10 ^ 20) (hsum : inv.totalTax = .ok sum)
    (htax : tax.signedCents = TaxRate.taxCents subtotal.value t.rate.value) :
    |(sum.amount.signedCents : ℚ) - tax.signedCents| ≤ 0.51 * (inv.items.length + 1) := by
  have hitems : ∀ i ∈ inv.items, ∃ m, i.subtotal = .ok m ∧ m.value < 10 ^ 20 := by
    intro i hi
    obtain ⟨m, hm, hle⟩ := value_le_of_mem h hi
    exact ⟨m, hm, hle.trans_lt hsmall⟩
  have hvalues : ∀ i ∈ inv.items, i.taxRate.rate.value = t.rate.value := by
    intro i hi
    exact Decimal.same_iff.1 (Bool.and_eq_true_iff.1 (hrates i hi)).1
  -- both are compared with the exact tax on the subtotal
  have hparts := abs_centsIn_tax_sub_le hvalues hitems
  have hwhole := TaxRate.abs_taxCents_sub_le (subtotal_nonneg h) hsmall t.rate_nonneg t.rate_le
  have hexact : (centsIn LineItem.subtotal inv.items : ℚ) / 100 = subtotal.value := by
    rw [Money.value, Amount.value, (lineAmount_subtotal.sumOf_eq_ok_iff.1 h).2.2.2]
  rw [← (lineAmount_tax.sumOf_eq_ok_iff.1 hsum).2.2.2, hexact] at hparts
  rw [← htax, abs_sub_comm] at hwhole
  calc |(sum.amount.signedCents : ℚ) - tax.signedCents|
      ≤ |sum.amount.signedCents - subtotal.value * t.rate.value| +
          |subtotal.value * t.rate.value - tax.signedCents| := abs_sub_le _ _ _
    _ ≤ 0.51 * inv.items.length + 0.51 := add_le_add hparts hwhole
    _ = 0.51 * (inv.items.length + 1) := by ring

/-- Where all items are taxed at one rate, the total tax and the tax on the subtotal are apart by at
most 0.0051 units for each item and once more; for two items that is at most a cent. -/
theorem tax_drift_le (hrates : ∀ i ∈ inv.items, i.taxRate.same t = true)
    (h : inv.subtotal = .ok subtotal) (hsmall : subtotal.value < 10 ^ 20) :
    ∃ sum tax, inv.totalTax = .ok sum ∧
      t.calculateTax (.decimal (.finite subtotal.amount.toDecimal)) = .ok tax ∧
      |sum.value - tax.value| ≤ 0.0051 * (inv.items.length + 1) ∧
      (inv.items.length = 2 → |sum.value - tax.value| ≤ 0.01) := by
  obtain ⟨sum, hsum⟩ := exists_totalTax h
  obtain ⟨tax, htax, hcents⟩ := TaxRate.exists_calculateTax (subtotal_nonneg h) t
  have hdrift := abs_totalTax_sub_le hrates h hsmall hsum hcents
  have hunits : |sum.value - tax.value| =
      |(sum.amount.signedCents : ℚ) - tax.signedCents| / 100 := by
    rw [Money.value, Amount.value, Amount.value, ← sub_div, abs_div]
    norm_num
  refine ⟨sum, tax, hsum, htax, ?_, fun htwo => ?_⟩
  · rw [hunits]
    linarith
  · -- taxes are whole cents, so they are not one and a half cents apart
    have hlt : |(sum.amount.signedCents : ℚ) - tax.signedCents| < 2 := by
      rw [htwo] at hdrift
      push_cast at hdrift
      linarith
    have hcent : |sum.amount.signedCents - tax.signedCents| ≤ 1 :=
      Int.lt_add_one_iff.1 (by exact_mod_cast hlt)
    have hcast : |(sum.amount.signedCents : ℚ) - tax.signedCents| ≤ 1 := by exact_mod_cast hcent
    rw [hunits]
    linarith

/-- A twentieth of a per cent. -/
def sampleTwentieth : TaxRate := ⟨⟨false, 5, -2⟩, .vat, by decide +kernel⟩

/-- The sample invoice with two items of 10.00 USD, each taxed with half a cent. -/
def sampleHalfCents : Invoice :=
  { sample with
    items := [{ LineItem.sample with taxRate := sampleTwentieth },
      { LineItem.sample with taxRate := ⟨⟨false, 50, -3⟩, .vat, by decide +kernel⟩ }] }

/-- The cent on the whole becomes a cent on each of the items. -/
theorem tax_drift_le_sample :
    sampleHalfCents.subtotal = .ok ⟨⟨false, 2000, by decide⟩, .usd⟩ ∧
      Money.value ⟨⟨false, 2000, by decide⟩, .usd⟩ < 10 ^ 20 ∧
      (∀ i ∈ sampleHalfCents.items, i.taxRate.same sampleTwentieth = true) ∧
      ∃ (sum : Money) (tax : Amount),
        sampleHalfCents.totalTax = .ok sum ∧ sum.amount.signedCents = 2 ∧
        sampleTwentieth.calculateTax (.decimal (.finite ⟨false, 2000, -2⟩)) = .ok tax ∧
        tax.signedCents = 1 ∧ |sum.value - tax.value| ≤ 0.01 := by
  have hrates : ∀ i ∈ sampleHalfCents.items, i.taxRate.same sampleTwentieth = true := by
    decide +kernel
  have hsubtotal : sampleHalfCents.subtotal = .ok ⟨⟨false, 2000, by decide⟩, .usd⟩ := by
    decide +kernel
  have hsmall : Money.value ⟨⟨false, 2000, by decide⟩, .usd⟩ < 10 ^ 20 := by
    norm_num [Money.value, Amount.value, Amount.signedCents]
  have htotalTax : sampleHalfCents.totalTax = .ok ⟨⟨false, 2, by decide⟩, .usd⟩ := by
    decide +kernel
  have hwhole : sampleTwentieth.calculateTax (.decimal (.finite ⟨false, 2000, -2⟩)) =
      .ok ⟨false, 1, by decide⟩ := by
    decide +kernel
  obtain ⟨sum, tax, hsum, htax, -, htwo⟩ := tax_drift_le hrates hsubtotal hsmall
  obtain rfl : ⟨⟨false, 2, by decide⟩, .usd⟩ = sum := Except.ok.inj (htotalTax.symm.trans hsum)
  obtain rfl : ⟨false, 1, by decide⟩ = tax := Except.ok.inj (hwhole.symm.trans htax)
  exact ⟨hsubtotal, hsmall, hrates, _, _, htotalTax, rfl, hwhole, rfl, htwo rfl⟩

end Invoice

end Billing
