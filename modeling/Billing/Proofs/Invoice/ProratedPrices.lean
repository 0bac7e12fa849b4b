import Billing.Proofs.Invoice.PeriodSpan
import Billing.Proofs.Invoice.ProrationCheck
import Billing.Proofs.Invoice.Settlement
import Billing.Proofs.Money.Scaled
import Billing.Proofs.Money.Thirtieths

set_option autoImplicit false

/-! # Prorated prices

Every price of a prorated invoice is a thirtieth of the price in the source for each started day
(`StartedDays`), rounded to cents. It is rounded in three steps, and up to `10 ^ 25` cents these can
be told from one rounding at half cents only: `Invoice.prices_prorated` says what each price is, and
`Invoice.half_cent_lost` is the price of a day at which a cent is missing.
-/

namespace Billing

/-! ## The days of a period -/

/-- A period reaches into its last day and not beyond it. -/
def StartedDays (span : ℤ) (days : ℕ) : Prop :=
  ((days : ℤ) - 1) * microsPerDay < span ∧ span ≤ days * microsPerDay

/-- These are the whole days of the span. -/
theorem startedDays_iff {span : ℤ} {days : ℕ} :
    StartedDays span days ↔ wholeDays span = days := by
  have hfits : wholeDays span ≤ days ↔ span ≤ days * microsPerDay := wholeDays_le_iff
  have hfewer : wholeDays span ≤ days - 1 ↔ span ≤ ((days : ℤ) - 1) * microsPerDay :=
    wholeDays_le_iff
  rw [StartedDays]
  constructor
  · rintro ⟨hlower, hupper⟩
    omega
  · intro hdays
    omega

/-- The factor of the prices for a period, by its started days. -/
theorem exists_startedDays {span : ℤ} {factor : Decimal} (later : 0 < span)
    (h : (Decimal.ofInt (wholeDays span)).div referenceDays = .ok factor) :
    ∃ days : ℕ, 0 < days ∧ StartedDays span days ∧
      factor.size = Decimal.nearest ((days : ℚ) / 30) := by
  have hpos := wholeDays_pos later
  obtain ⟨days, hdays⟩ := Int.eq_ofNat_of_zero_le hpos.le
  refine ⟨days, by omega, startedDays_iff.2 hdays, ?_⟩
  rw [Decimal.size_of_div h, hdays, referenceDays, Decimal.size_ofInt, Decimal.size_ofInt]
  rfl

namespace Invoice

variable {inv new : Invoice} {item prorated : LineItem} {start finish : Given} {today : Date}
  {numbering : Numbering InvoiceNumber} {fresh : Fresh} {c : Counter} {factor : Decimal}
  {days : ℕ} {id : Identifier}

/-- The price of an item and the one that is made from it for some days. -/
structure PriceProrated (days : ℕ) (item prorated : LineItem) : Prop where
  currency : prorated.unitPrice.currency = item.unitPrice.currency
  /-- the factor, the product and the cents are rounded one after the other -/
  steps : prorated.unitPrice.amount.signedCents =
    roundHalfUp (Decimal.nearest
      (item.unitPrice.amount.signedCents * Decimal.nearest ((days : ℚ) / 30)))
  /-- the error is half a cent for the last step, and next to nothing for the others -/
  near : |(prorated.unitPrice.amount.signedCents : ℚ) -
      item.unitPrice.amount.signedCents * days / 30| ≤
    1 / 2 + item.unitPrice.amount.signedCents * days / 30 * (2 / 10 ^ 27)
  /-- this is one rounding of the exact price, but for the half cents that are lost -/
  rounded : (item.unitPrice.amount.signedCents * days : ℚ) / 30 < 10 ^ 25 →
    prorated.unitPrice.amount.signedCents =
      roundHalfUp (item.unitPrice.amount.signedCents * days / 30) -
        if HalfCentLost item.unitPrice.amount.cents days then 1 else 0

theorem priceProrated_of_eq_ok (hdays : 0 < days)
    (hfactor : factor.size = Decimal.nearest ((days : ℚ) / 30))
    (h : proratedItem factor item id = .ok prorated) : PriceProrated days item prorated := by
  have hscale := (proratedItem_eq_ok h).2
  obtain ⟨hcurrency, hcents⟩ := Money.scale_eq_ok hscale
    (hfactor ▸ hundredth_le_product item.cents_pos hdays)
  rw [hfactor] at hcents
  refine ⟨hcurrency, ?_, ?_, fun hsmall => ?_⟩
  · rw [prorated.signedCents_unitPrice, item.signedCents_unitPrice, hcents, Int.cast_natCast]
  · rw [prorated.signedCents_unitPrice, item.signedCents_unitPrice, hcents, Int.cast_natCast,
      ← Nat.cast_mul]
    have hproduct := abs_nearest_product_sub_le item.cents_pos hdays
    have hround := abs_roundHalfUp_sub_le
      (Decimal.nearest (item.unitPrice.amount.cents * Decimal.nearest ((days : ℚ) / 30)))
    exact (abs_sub_le _ _ _).trans (add_le_add hround hproduct)
  · rw [item.signedCents_unitPrice, Int.cast_natCast, ← Nat.cast_mul] at hsmall ⊢
    rw [prorated.signedCents_unitPrice, hcents,
      roundHalfUp_thirtieths item.cents_pos hdays hsmall]

/-- What is prorated for a period is charged for its started days, and each price comes from the one
in the source. -/
theorem prices_prorated
    (h : ((prorate start finish numbering today fresh).on inv c).1.1 = .ok new) :
    ∃ (span : ℤ) (days : ℕ), spanOf start finish = .ok span ∧ 0 < span ∧ StartedDays span days ∧
      List.Forall₂ (PriceProrated days) inv.items new.items := by
  obtain ⟨factor, hfactor, hitems⟩ := forall₂_of_proratedItems (proratedItems_of_prorate h)
  obtain ⟨-, span, hspan, later, hdiv⟩ := prorationFactor_eq_ok_iff.1 hfactor
  obtain ⟨days, hdays, hstarted, hsize⟩ := exists_startedDays later hdiv
  refine ⟨span, days, hspan, later, hstarted, ?_⟩
  have hprices := hitems.imp fun p i hi => priceProrated_of_eq_ok hdays hsize hi
  rwa [← List.forall₂_map_left_iff (f := Prod.fst), List.zipIdx_map_fst] at hprices

/-- Half of January 2026 has fifteen days, for which 5.00 USD come to 2.50 USD. -/
theorem prices_prorated_sample :
    ∃ new, ((prorate (.day sampleDay) (.day ⟨2026, 1, 16, by decide⟩) (pure sample.number)
        sampleDay (.following 1)).on (sampleMonthly.run sampleSending) .start).1.1 = .ok new ∧
      List.Forall₂ (PriceProrated 15) (sampleMonthly.run sampleSending).items new.items ∧
      new.items.map (·.unitPrice.amount.signedCents) = [250] := by
  have hprices : ((prorate (.day sampleDay) (.day ⟨2026, 1, 16, by decide⟩) (pure sample.number)
        sampleDay (.following 1)).on (sampleMonthly.run sampleSending) .start).1.1.map
      (fun new => new.items.map (·.unitPrice.amount.signedCents)) = .ok [250] := by decide +kernel
  obtain ⟨new, hnew, hcents⟩ := Except.map_eq_ok_iff.1 hprices
  obtain ⟨span, days, hspan, -, ⟨hlower, hupper⟩, hitems⟩ := prices_prorated hnew
  have hfifteen : spanOf (.day sampleDay) (.day ⟨2026, 1, 16, by decide⟩) =
      .ok (15 * microsPerDay) := by decide +kernel
  obtain rfl := Except.ok.inj (hfifteen.symm.trans hspan)
  obtain rfl : days = 15 := by
    rw [microsPerDay] at hlower hupper
    omega
  exact ⟨new, hnew, hitems, hcents⟩

/-- The sample invoice is sent over 1.65 USD. -/
def sampleSubscription : List Step :=
  sampleSendingOf ⟨false, 1, 0⟩ ⟨false, 165, by decide⟩ (by decide) (by decide +kernel) (by decide)

/-- For one day 1.65 USD come to 0.055 USD, and the new price is 0.05 USD: the half cent is lost. -/
theorem half_cent_lost :
    restore sampleMonthlyFields {} (.following 0) = .ok sampleMonthly ∧
      (sampleMonthly.run sampleSubscription).items.map (·.unitPrice.amount.signedCents) = [165] ∧
      spanOf (.day sampleDay) (.day ⟨2026, 1, 2, by decide⟩) = .ok microsPerDay ∧
      StartedDays microsPerDay 1 ∧
      ((prorate (.day sampleDay) (.day ⟨2026, 1, 2, by decide⟩) (pure sample.number) sampleDay
          (.following 1)).on (sampleMonthly.run sampleSubscription) .start).1.1.map
        (fun new => new.items.map (·.unitPrice.amount.signedCents)) = .ok [5] ∧
      roundHalfUp (165 * 1 / 30) = 6 ∧ HalfCentLost 165 1 := by
  refine ⟨restore_sampleMonthly, by decide +kernel, by decide +kernel, ?_, by decide +kernel,
    ?_, by decide +kernel⟩
  · exact ⟨by decide, by decide⟩
  · rw [roundHalfUp_eq_iff]
    norm_num

end Invoice

end Billing
