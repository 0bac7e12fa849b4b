import Billing.Proofs.Invoice.ProratedPeriods

set_option autoImplicit false

/-! # Split periods

The days of two periods that follow each other are those of the whole. Each price is rounded, so the
parts need not add up to it, but below `10 ^ 15` units no more than a cent goes astray for each item
(`Invoice.split_costs_within_a_cent`).
-/

namespace Billing

open Decimal

namespace Invoice

variable {inv new : Invoice} {item prorated : LineItem} {start middle finish : Date}
  {numbering : Numbering InvoiceNumber} {today : Date} {fresh : Fresh} {c : Counter} {days : ℕ}

theorem ordinal_lt_of_prorate
    (h : ((prorate (.day start) (.day finish) numbering today fresh).on inv c).1.1 = .ok new) :
    start.ordinal < finish.ordinal := by
  obtain ⟨factor, hfactor, -⟩ := forall₂_of_proratedItems (proratedItems_of_prorate h)
  obtain ⟨-, span, hspan, later, -⟩ := prorationFactor_eq_ok_iff.1 hfactor
  obtain rfl := Except.ok.inj hspan
  rw [microsPerDay] at later
  omega

/-- Below `10 ^ 15` units, a price is off by half a cent and next to nothing. -/
theorem abs_cents_sub_lt (lasts : Lasts (.day start) (.day finish) days)
    (small : item.unitPrice.value < 10 ^ 15) (h : PriceProrated days item prorated) :
    |(prorated.unitPrice.amount.signedCents : ℚ) -
      item.unitPrice.amount.signedCents * days / 30| < 2 / 3 := by
  have hcents : (item.unitPrice.amount.signedCents : ℚ) < 10 ^ 17 := by
    rw [Money.value, Amount.value, div_lt_iff₀ (by norm_num)] at small
    linarith
  have hdays : (days : ℚ) ≤ 5000000 := by exact_mod_cast lasts.le
  have hproduct : (item.unitPrice.amount.signedCents : ℚ) * days ≤ 10 ^ 17 * 5000000 :=
    mul_le_mul hcents.le hdays (Nat.cast_nonneg _) (by norm_num)
  calc |(prorated.unitPrice.amount.signedCents : ℚ) -
        item.unitPrice.amount.signedCents * days / 30|
      ≤ 1 / 2 + item.unitPrice.amount.signedCents * days / 30 * (2 / 10 ^ 27) := h.near
    _ ≤ 1 / 2 + 10 ^ 17 * 5000000 / 30 * (2 / 10 ^ 27) := by linarith
    _ < 2 / 3 := by norm_num

/-- If the exact prices of two parts add up to that of the whole, whole cents next to them do so up
to one: they are off by less than two. -/
theorem abs_parts_sub_le {a b w : ℤ} {x y : ℚ} (ha : |(a : ℚ) - x| < 2 / 3)
    (hb : |(b : ℚ) - y| < 2 / 3) (hw : |(w : ℚ) - (x + y)| < 2 / 3) :
    |(a : ℚ) + b - w| ≤ 1 := by
  obtain ⟨ha, ha'⟩ := abs_lt.1 ha
  obtain ⟨hb, hb'⟩ := abs_lt.1 hb
  obtain ⟨hw, hw'⟩ := abs_lt.1 hw
  have hlt : |(a : ℚ) + b - w| < 2 := by
    rw [abs_lt]
    constructor <;> linarith
  have hcents : |a + b - w| < 2 := by exact_mod_cast hlt
  exact_mod_cast Int.le_of_lt_add_one hcents

theorem forall₂_priceProrated (lasts : Lasts (.day start) (.day finish) days)
    (h : ((prorate (.day start) (.day finish) numbering today fresh).on inv c).1.1 = .ok new) :
    List.Forall₂ (PriceProrated days) inv.items new.items := by
  obtain ⟨factor, hfactor, hall⟩ := forall₂_of_prorate lasts h
  have hsize : factor.size = nearest ((days : ℚ) / 30) := by
    rw [← abs_value, hfactor, abs_of_nonneg (nearest_nonneg (by positivity))]
  exact hall.imp fun item i hi => priceProrated_of_eq_ok lasts.pos hsize hi

/-- What is made of each element is found in its place. -/
theorem exists_getElem?_of_forall₂ {α β : Type} {R : α → β → Prop} {xs : List α} {ys : List β}
    {n : ℕ} {x : α} (h : List.Forall₂ R xs ys) (hx : xs[n]? = some x) :
    ∃ y, ys[n]? = some y ∧ R x y := by
  induction h generalizing n with
  | nil => cases hx
  | cons hy _ ih =>
      cases n with
      | zero =>
          obtain rfl := Option.some.inj hx
          exact ⟨_, rfl, hy⟩
      | succ n => exact ih hx

/-- An invoice with prices below `10 ^ 15` units is charged for a period as for the two parts of it,
up to one cent for each item. -/
theorem split_costs_within_a_cent {numbering' numbering'' : Numbering InvoiceNumber}
    {today' today'' : Date} {fresh' fresh'' : Fresh} {c' c'' : Counter} {left right whole : Invoice}
    (small : ∀ item ∈ inv.items, item.unitPrice.value < 10 ^ 15)
    (hleft : ((prorate (.day start) (.day middle) numbering today fresh).on inv c).1.1 = .ok left)
    (hright : ((prorate (.day middle) (.day finish) numbering' today' fresh').on inv c').1.1 =
      .ok right)
    (hwhole : ((prorate (.day start) (.day finish) numbering'' today'' fresh'').on inv c'').1.1 =
      .ok whole) {n : ℕ} (hn : inv.items[n]? = some item) :
    ∃ i j k, left.items[n]? = some i ∧ right.items[n]? = some j ∧ whole.items[n]? = some k ∧
      |i.unitPrice.value + j.unitPrice.value - k.unitPrice.value| ≤ 0.01 := by
  have hstart := ordinal_lt_of_prorate hleft
  have hfinish := ordinal_lt_of_prorate hright
  have lasts := lasts_of_ordinal_lt hstart
  have lasts' := lasts_of_ordinal_lt hfinish
  have lasts'' := lasts_of_ordinal_lt (hstart.trans hfinish)
  obtain ⟨i, hi, hpriced⟩ := exists_getElem?_of_forall₂ (forall₂_priceProrated lasts hleft) hn
  obtain ⟨j, hj, hpriced'⟩ := exists_getElem?_of_forall₂ (forall₂_priceProrated lasts' hright) hn
  obtain ⟨k, hk, hpriced''⟩ := exists_getElem?_of_forall₂ (forall₂_priceProrated lasts'' hwhole) hn
  refine ⟨i, j, k, hi, hj, hk, ?_⟩
  have hsmall := small item (List.mem_of_getElem? hn)
  -- the days of the parts are those of the whole, so the exact prices add up
  have hdays : ((finish.ordinal - start.ordinal : ℕ) : ℚ) =
      (middle.ordinal - start.ordinal : ℕ) + (finish.ordinal - middle.ordinal : ℕ) := by
    exact_mod_cast (show finish.ordinal - start.ordinal =
      middle.ordinal - start.ordinal + (finish.ordinal - middle.ordinal) by omega)
  have hnear := abs_cents_sub_lt lasts'' hsmall hpriced''
  rw [hdays, mul_add, add_div] at hnear
  have hcent := abs_parts_sub_le (abs_cents_sub_lt lasts hsmall hpriced)
    (abs_cents_sub_lt lasts' hsmall hpriced') hnear
  have hvalue : i.unitPrice.value + j.unitPrice.value - k.unitPrice.value =
      ((i.unitPrice.amount.signedCents : ℚ) + j.unitPrice.amount.signedCents -
        k.unitPrice.amount.signedCents) / 100 := by
    simp only [Money.value, Amount.value]
    ring
  rw [hvalue, abs_div, abs_of_pos (by norm_num : (0 : ℚ) < 100), div_le_iff₀ (by norm_num)]
  linarith

/-- For each of two days 5.00 USD come to 0.17 USD, and for both to 0.33 USD. -/
theorem split_costs_within_a_cent_sample :
    ∃ (left right whole : Invoice) (i j k : LineItem),
      sampleProrated sampleDay ⟨2026, 1, 2, by decide⟩ = .ok left ∧
      sampleProrated ⟨2026, 1, 2, by decide⟩ ⟨2026, 1, 3, by decide⟩ = .ok right ∧
      sampleProrated sampleDay ⟨2026, 1, 3, by decide⟩ = .ok whole ∧
      left.items[0]? = some i ∧ right.items[0]? = some j ∧ whole.items[0]? = some k ∧
      |i.unitPrice.value + j.unitPrice.value - k.unitPrice.value| ≤ 0.01 ∧
      (left.items ++ right.items ++ whole.items).map (·.unitPrice.amount.signedCents) =
        [17, 17, 33] := by
  have hleft : (sampleProrated sampleDay ⟨2026, 1, 2, by decide⟩).map
      (fun new => new.items.map (·.unitPrice.amount.signedCents)) = .ok [17] := by decide +kernel
  have hright : (sampleProrated ⟨2026, 1, 2, by decide⟩ ⟨2026, 1, 3, by decide⟩).map
      (fun new => new.items.map (·.unitPrice.amount.signedCents)) = .ok [17] := by decide +kernel
  have hwhole : (sampleProrated sampleDay ⟨2026, 1, 3, by decide⟩).map
      (fun new => new.items.map (·.unitPrice.amount.signedCents)) = .ok [33] := by decide +kernel
  obtain ⟨left, hleft, hlefts⟩ := Except.map_eq_ok_iff.1 hleft
  obtain ⟨right, hright, hrights⟩ := Except.map_eq_ok_iff.1 hright
  obtain ⟨whole, hwhole, hwholes⟩ := Except.map_eq_ok_iff.1 hwhole
  have hitems : (sampleMonthly.run sampleSending).items = [LineItem.sample] := by decide +kernel
  have small : ∀ item ∈ (sampleMonthly.run sampleSending).items,
      item.unitPrice.value < 10 ^ 15 := by
    rw [hitems, List.forall_mem_singleton]
    norm_num [Money.value, Amount.value, Amount.signedCents, LineItem.sample]
  have hfirst : (sampleMonthly.run sampleSending).items[0]? = some LineItem.sample := by
    rw [hitems]
    rfl
  obtain ⟨i, j, k, hi, hj, hk, hcent⟩ := split_costs_within_a_cent small hleft hright hwhole hfirst
  refine ⟨left, right, whole, i, j, k, hleft, hright, hwhole, hi, hj, hk, hcent, ?_⟩
  rw [List.map_append, List.map_append, hlefts, hrights, hwholes]
  rfl

end Invoice

end Billing
