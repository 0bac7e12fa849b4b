import Billing.Proofs.Calendar.Stamp
import Billing.Proofs.Invoice.ProratedPrices
import Billing.Proofs.Money.Product

set_option autoImplicit false

/-! # Longer periods

How the prices of prorated invoices change with the period. All that a period does to a price is to
give the number of started days (`Lasts`), and each price grows with them
(`Invoice.proratedCents_mono`). So a longer period never costs less, and where it is refused because
nothing is left of a price, a shorter one is refused as well (`Invoice.prices_grow_with_days`).
-/

namespace Billing

open Decimal

/-! ## Periods -/

theorem Date.ordinal_lt (d : Date) : d.ordinal < 4000000 := by
  have hmonths : ∀ month, Calendar.daysBeforeMonth d.year month ≤ 31 * month := by
    intro month
    induction month with
    | zero => exact Nat.le_refl 0
    | succ month ih =>
        have hdays := Calendar.daysInMonth_le d.year month
        rw [Calendar.daysBeforeMonth]
        omega
  have hmonth := hmonths d.month
  obtain ⟨-, hyear, hmonths, hday⟩ := d.bounds
  have hfour : tenTo 4 = 10000 := rfl
  have htwo : tenTo 2 = 100 := rfl
  rw [hfour] at hyear
  rw [htwo] at hmonths hday
  rw [Date.ordinal, Calendar.daysBeforeYear]
  omega

/-- A moment lies within a day of the calendar of universal time. -/
theorem Moment.instant_bounds (m : Moment) :
    -86400000000 < m.instant ∧ m.instant < 4000002 * 86400000000 := by
  have hdate := m.date.ordinal_lt
  have hclock := m.clock_lt
  have hoffset : (m.offset.getD 0).natAbs < 86400000000 := by
    cases h : m.offset with
    | none => decide
    | some o => exact m.offset_lt o h
  rw [microsPerDay] at hclock
  rw [Moment.instant, microsPerDay]
  omega

theorem span_lt {start finish : Given} {span : ℤ} (h : spanOf start finish = .ok span) :
    span < 5000000 * microsPerDay := by
  obtain ⟨p, q, -, -, hpq⟩ := PeriodEnd.spanOf_eq_ok_iff.1 h
  obtain ⟨-, rfl⟩ := PeriodEnd.span_eq_ok_iff.1 hpq
  obtain ⟨a, ha⟩ := p.exists_instant_eq q
  obtain ⟨b, hb⟩ := q.exists_instant_eq p
  have hstart := a.instant_bounds
  have hfinish := b.instant_bounds
  rw [← ha, ← hb, microsPerDay]
  omega

/-- A period with a number of started days. -/
def Lasts (start finish : Given) (days : ℕ) : Prop :=
  ∃ span, spanOf start finish = .ok span ∧ 0 < span ∧ StartedDays span days

namespace Lasts

variable {start finish : Given} {days : ℕ}

theorem pos (h : Lasts start finish days) : 0 < days := by
  obtain ⟨span, -, later, -, hupper⟩ := h
  rw [microsPerDay] at hupper
  omega

theorem le (h : Lasts start finish days) : days ≤ 5000000 := by
  obtain ⟨span, hspan, -, hlower, -⟩ := h
  have hspan := span_lt hspan
  rw [microsPerDay] at hlower hspan
  omega

/-- There is always a factor of the prices. -/
theorem exists_factor (h : Lasts start finish days) : ∃ span factor,
    spanOf start finish = .ok span ∧ 0 < span ∧
      (Decimal.ofInt (wholeDays span)).div referenceDays = .ok factor ∧
        factor.value = nearest ((days : ℚ) / 30) := by
  have hdays : (days : ℚ) ≤ 5000000 := by exact_mod_cast h.le
  have hnonneg : (0 : ℚ) ≤ (days : ℚ) / 30 := by positivity
  obtain ⟨span, hspan, later, hstarted⟩ := h
  have hwhole := startedDays_iff.1 hstarted
  have hcomputes : Computes ((Decimal.ofInt (wholeDays span)).div referenceDays) (days / 30) := by
    have hvalue : (Decimal.ofInt (wholeDays span)).value / referenceDays.value =
        (days : ℚ) / 30 := by
      rw [referenceDays, value_ofInt, value_ofInt, hwhole]
      norm_num
    exact hvalue ▸ computes_div (by decide)
  have hlimit : |(days : ℚ) / 30| < overflowLimit := by
    have hunits := units_le_overflowLimit
    norm_num at hunits
    rw [abs_of_nonneg hnonneg]
    linarith
  obtain ⟨factor, hfactor⟩ := hcomputes.exists_eq_ok hlimit
  exact ⟨span, factor, hspan, later, hfactor, hcomputes.value_of_nonneg hnonneg hfactor⟩

end Lasts

/-- Between two dates, the days are counted. -/
theorem lasts_of_ordinal_lt {start finish : Date} (h : start.ordinal < finish.ordinal) :
    Lasts (.day start) (.day finish) (finish.ordinal - start.ordinal) := by
  refine ⟨_, rfl, ?_, ?_, ?_⟩ <;> rw [microsPerDay] <;> omega

namespace Invoice

variable {inv new new' : Invoice} {item prorated : LineItem} {start finish start' finish' : Given}
  {numbering : Numbering InvoiceNumber} {number : InvoiceNumber} {today : Date} {fresh : Fresh}
  {c : Counter} {factor : Decimal} {days days' months : ℕ} {id : Identifier} {e : Failure}

/-! ## One price -/

/-- The cents that an item comes to for some days. -/
def proratedCents (days : ℕ) (item : LineItem) : ℤ :=
  centsOfNearest (item.unitPrice.value * nearest ((days : ℚ) / 30))

/-- Nothing is left of a price. -/
def worthless : Failure := .invalid "unitPrice" "Unit price must be positive"

theorem value_unitPrice_pos (i : LineItem) : 0 < i.unitPrice.value :=
  div_pos (Int.cast_pos.2 i.unitPrice_above_zero) (by norm_num)

/-- The factor, the product and the cents are rounded one after the other, and each time the order
is kept. -/
theorem proratedCents_mono (h : days ≤ days') (item : LineItem) :
    proratedCents days item ≤ proratedCents days' item := by
  have hdays : (days : ℚ) / 30 ≤ (days' : ℚ) / 30 :=
    (div_le_div_iff_of_pos_right (by norm_num)).2 (Nat.cast_le.2 h)
  have hnonneg : (0 : ℚ) ≤ (days : ℚ) / 30 := by positivity
  have hprice := (value_unitPrice_pos item).le
  have hfactor := nearest_nonneg hnonneg
  exact centsOfNearest_mono (mul_nonneg hprice hfactor)
    (mul_le_mul_of_nonneg_left (nearest_mono hnonneg hdays) hprice)

theorem proratedCents_nonneg (days : ℕ) (item : LineItem) : 0 ≤ proratedCents days item :=
  roundHalfUp_nonneg (mul_nonneg (nearest_nonneg (mul_nonneg (value_unitPrice_pos item).le
    (nearest_nonneg (by positivity)))) (by norm_num))

/-- A product is refused for its digits, be it as a decimal or as an amount. -/
theorem field?_of_scale {m : Money} (h : m.scale factor = .error e) :
    e.field? ≠ some "unitPrice" := by
  unfold Money.scale at h
  cases hproduct : m.amount.toDecimal.mul factor with
  | error signal =>
      rw [hproduct] at h
      obtain rfl := Except.error.inj h
      simp [Failure.field?]
  | ok product =>
      cases hround : Amount.round product with
      | error e' =>
          simp only [hproduct, ofSignal, hround, Except.ok_bind, Except.error_bind] at h
          obtain rfl := Except.error.inj h
          rw [Amount.round_eq_error hround]
          simp [Failure.field?]
      | ok a =>
          simp only [hproduct, ofSignal, hround, Except.ok_bind] at h
          cases h

section Item

variable (hfactor : factor.value = nearest ((days : ℚ) / 30))

include hfactor

theorem product_nonneg (item : LineItem) : 0 ≤ item.unitPrice.value * factor.value :=
  hfactor ▸ mul_nonneg (value_unitPrice_pos item).le (nearest_nonneg (by positivity))

theorem exists_scale_unitPrice_iff (item : LineItem) :
    (∃ p, item.unitPrice.scale factor = .ok p) ↔ proratedCents days item < 10 ^ 28 := by
  rw [Money.exists_scale_iff, abs_of_nonneg (product_nonneg hfactor item), hfactor, proratedCents]

theorem signedCents_of_scale_unitPrice {p : Money} (h : item.unitPrice.scale factor = .ok p) :
    p.amount.signedCents = proratedCents days item := by
  rw [Money.signedCents_of_scale_nonneg h (product_nonneg hfactor item), hfactor, proratedCents]

/-- The price of an item for some days is too large, or nothing is left of it, or it is that of the
new item. -/
theorem proratedItem_cases (item : LineItem) (id : Identifier) :
    (10 ^ 28 ≤ proratedCents days item ∧
      ∃ e, proratedItem factor item id = .error e ∧ e.field? ≠ some "unitPrice") ∨
    (proratedCents days item = 0 ∧ proratedItem factor item id = .error worthless) ∨
    (0 < proratedCents days item ∧ proratedCents days item < 10 ^ 28 ∧
      ∃ i, proratedItem factor item id = .ok i ∧
        i.unitPrice.currency = item.unitPrice.currency ∧
        i.unitPrice.amount.signedCents = proratedCents days item) := by
  rw [proratedItem_eq]
  cases hscale : item.unitPrice.scale factor with
  | error e =>
      refine .inl ⟨not_lt.1 fun hlt => ?_, e, rfl, field?_of_scale hscale⟩
      obtain ⟨p, hp⟩ := (exists_scale_unitPrice_iff hfactor item).2 hlt
      cases hscale.symm.trans hp
  | ok p =>
      have hcents := signedCents_of_scale_unitPrice hfactor hscale
      have hfits := (exists_scale_unitPrice_iff hfactor item).1 ⟨p, hscale⟩
      rw [Except.ok_bind, LineItem.unitPriceOf]
      split
      next hpos =>
        have hcurrency := (Money.scale_eq_ok_iff.1 hscale).1
        rw [Money.isPositive_iff, hcents] at hpos
        exact .inr (.inr ⟨hpos, hfits, _, rfl, hcurrency, hcents⟩)
      next hpos =>
        rw [Money.isPositive_iff, hcents, not_lt] at hpos
        exact .inr (.inl ⟨le_antisymm hpos (proratedCents_nonneg days item), rfl⟩)

theorem exists_proratedItem_iff :
    (∃ i, proratedItem factor item id = .ok i) ↔
      0 < proratedCents days item ∧ proratedCents days item < 10 ^ 28 := by
  obtain ⟨hlarge, e, he, -⟩ | ⟨hzero, he⟩ | ⟨hpos, hfits, i, hi, -⟩ :=
    proratedItem_cases hfactor item id
  · exact iff_of_false (by simp [he]) fun h => hlarge.not_gt h.2
  · exact iff_of_false (by simp [he]) fun h => h.1.ne' hzero
  · exact iff_of_true ⟨i, hi⟩ ⟨hpos, hfits⟩

theorem proratedItem_eq_worthless_iff :
    proratedItem factor item id = .error worthless ↔ proratedCents days item = 0 := by
  obtain ⟨hlarge, e, he, hfield⟩ | ⟨hzero, he⟩ | ⟨hpos, -, i, hi, -⟩ :=
    proratedItem_cases hfactor item id
  · refine iff_of_false (fun h => hfield ?_) (by omega)
    rw [Except.error.inj (he.symm.trans h)]
    rfl
  · exact iff_of_true he hzero
  · simp [hi, hpos.ne']

/-- Nothing else is said about a price than that nothing is left of it. -/
theorem eq_worthless_of_proratedItem (he : e.field? = some "unitPrice")
    (h : proratedItem factor item id = .error e) : e = worthless := by
  obtain ⟨-, e', he', hfield⟩ | ⟨-, he'⟩ | ⟨-, -, i, hi, -⟩ :=
    proratedItem_cases hfactor item id
  · obtain rfl := Except.error.inj (h.symm.trans he')
    exact absurd he hfield
  · exact Except.error.inj (h.symm.trans he')
  · cases h.symm.trans hi

/-- With a factor that is a whole number, prices are exact. -/
theorem proratedCents_of_whole {n : ℕ} (whole : nearest ((days : ℚ) / 30) = n) (item : LineItem) :
    (proratedCents days item < 10 ^ 28 ↔ n * item.unitPrice.value < 10 ^ 26) ∧
      (proratedCents days item < 10 ^ 28 →
        proratedCents days item = n * item.unitPrice.amount.signedCents) := by
  have hfactor' : factor.value = (n : ℤ) := by
    rw [hfactor, whole, Int.cast_natCast]
  obtain ⟨hexists, hcents⟩ := Money.scale_of_whole (m := item.unitPrice) hfactor'
  have hnonneg : 0 ≤ item.unitPrice.amount.signedCents * n :=
    mul_nonneg item.unitPrice_above_zero.le (Int.natCast_nonneg n)
  have hfits := (exists_scale_unitPrice_iff hfactor item).symm.trans hexists
  rw [abs_of_nonneg hnonneg] at hfits
  refine ⟨hfits.trans ?_, fun h => ?_⟩
  · rw [← Int.cast_lt (R := ℚ), Money.value, Amount.value]
    push_cast
    constructor <;> intro h <;> linarith
  · obtain ⟨p, hp⟩ := (exists_scale_unitPrice_iff hfactor item).2 h
    rw [← signedCents_of_scale_unitPrice hfactor hp, hcents p hp, mul_comm]

end Item

/-- Thirty days are a month. -/
theorem nearest_months {k : ℕ} (h : 30 * k ≤ 5000000) : nearest (((30 * k : ℕ) : ℚ) / 30) = k := by
  have hmonths : ((30 * k : ℕ) : ℚ) / 30 = (k : ℕ) * 10 ^ (0 : ℤ) := by
    push_cast
    ring
  have hk : k < tenTo precision := by
    have hlarge : 5000000 < tenTo precision := by decide
    omega
  rw [hmonths, nearest_eq_self hk (by decide), zpow_zero, mul_one]

/-! ## All prices -/

/-- All that a period does to the items is to give their factor. -/
theorem exists_proratedItems_eq (recurring : inv.type = .recurring)
    (lasts : Lasts start finish days) : ∃ factor : Decimal,
    factor.value = nearest ((days : ℚ) / 30) ∧ ∀ fresh, inv.proratedItems start finish fresh =
      inv.items.zipIdx.mapM fun p => proratedItem factor p.1 (fresh.item p.2) := by
  obtain ⟨span, factor, hspan, later, hdiv, hfactor⟩ := lasts.exists_factor
  have hfactorOf : inv.prorationFactor start finish = .ok factor :=
    prorationFactor_eq_ok_iff.2 ⟨recurring, span, hspan, later, hdiv⟩
  refine ⟨factor, hfactor, fun fresh => ?_⟩
  rw [proratedItems_eq, hfactorOf, Except.ok_bind]

/-- What a successful proration has made of each item. -/
theorem forall₂_of_prorate (lasts : Lasts start finish days)
    (h : ((prorate start finish numbering today fresh).on inv c).1.1 = .ok new) :
    ∃ factor : Decimal, factor.value = nearest ((days : ℚ) / 30) ∧
      List.Forall₂ (fun item i => proratedItem factor item i.id = .ok i) inv.items new.items := by
  have hitems := proratedItems_of_prorate h
  obtain ⟨_, hsome, -⟩ := forall₂_of_proratedItems hitems
  obtain ⟨factor, hfactor, heq⟩ :=
    exists_proratedItems_eq (prorationFactor_eq_ok_iff.1 hsome).1 lasts
  rw [heq, Except.mapM_eq_ok_iff] at hitems
  refine ⟨factor, hfactor, ?_⟩
  rw [← List.zipIdx_map_fst 0 inv.items]
  exact List.forall₂_map_left_iff.2 (hitems.imp fun p i hi => (proratedItem_eq_ok hi).1 ▸ hi)

/-- An item and the one that is made from it for some days. -/
structure PricedFor (days : ℕ) (item i : LineItem) : Prop where
  currency : i.unitPrice.currency = item.unitPrice.currency
  cents : i.unitPrice.amount.signedCents = proratedCents days item
  fits : proratedCents days item < 10 ^ 28

theorem forall₂_pricedFor (lasts : Lasts start finish days)
    (h : ((prorate start finish numbering today fresh).on inv c).1.1 = .ok new) :
    List.Forall₂ (PricedFor days) inv.items new.items := by
  obtain ⟨factor, hfactor, hall⟩ := forall₂_of_prorate lasts h
  refine hall.imp fun item i hi => ?_
  obtain ⟨-, e, he, -⟩ | ⟨-, he⟩ | ⟨-, hfits, i', hi', hcurrency, hcents⟩ :=
    proratedItem_cases hfactor item i.id
  · cases hi.symm.trans he
  · cases hi.symm.trans he
  · obtain rfl := Except.ok.inj (hi.symm.trans hi')
    exact ⟨hcurrency, hcents, hfits⟩

/-- A price that is refused, by the check as by the proration, which leaves everything as it is. -/
structure PriceRefused (inv : Invoice) (start finish : Given) (e : Failure) : Prop where
  check : ∀ today, (checkProration start finish today).on inv = (.error e, inv)
  prorate : ∀ numbering today fresh c,
    (prorate start finish numbering today fresh).on inv c = ((.error e, inv), c)

theorem priceRefused_of_proratedItems
    (h : ∀ fresh, inv.proratedItems start finish fresh = .error e) :
    inv.PriceRefused start finish e where
  check today := by rw [on_checkProration, h, Except.error_bind]
  prorate numbering today fresh c := by rw [on_prorate, h]

theorem exists_broken_of_addItem (h : (addItem item).result inv = .error e) :
    ∃ rule, e = .broken rule := by
  rw [Edit.result, on_addItem, requireItemCurrency] at h
  by_cases draft : inv.status = .draft
  case neg =>
    rw [if_neg draft] at h
    exact ⟨_, (Except.error.inj h).symm⟩
  by_cases hcurrency : item.unitPrice.currency = inv.currency
  case neg =>
    rw [if_pos draft, if_neg hcurrency] at h
    exact ⟨_, (Except.error.inj h).symm⟩
  rw [if_pos draft, if_pos hcurrency] at h
  cases hany : inv.items.any fun i => i.id == item.id <;> simp only [hany] at h
  case false => cases h
  case true => exact ⟨_, (Except.error.inj h).symm⟩

/-- To add items to an invoice, nothing about them is looked at but the rules. -/
theorem exists_broken_of_withItems {items : List LineItem} (h : inv.withItems items = .error e) :
    ∃ rule, e = .broken rule := by
  induction items generalizing inv with
  | nil => cases h
  | cons item items ih =>
      rw [withItems_cons] at h
      cases hadd : (addItem item).result inv with
      | ok after =>
          rw [hadd, Except.ok_bind] at h
          exact ih h
      | error e' =>
          rw [hadd, Except.error_bind] at h
          obtain rfl := Except.error.inj h
          exact exists_broken_of_addItem hadd

theorem requireFuture_eq_ok_iff {due : Date} :
    requireFuture due today = .ok () ↔ due.le today = false := by
  rw [requireFuture]
  split <;> simp_all

theorem exists_broken_of_requireFuture {due : Date} (h : requireFuture due today = .error e) :
    ∃ rule, e = .broken rule := by
  rw [requireFuture] at h
  split at h
  · exact ⟨_, (Except.error.inj h).symm⟩
  · cases h

/-- A price is refused while the items are made: nothing else is said about prices. -/
theorem proratedItems_of_check (he : e.field? = some "unitPrice")
    (h : ((checkProration start finish today).on inv).1 = .error e) :
    ∃ fresh, inv.proratedItems start finish fresh = .error e := by
  rw [on_checkProration] at h
  cases hitems : inv.proratedItems start finish (Fresh.following 0) with
  | error e' =>
      rw [hitems] at h
      exact ⟨_, hitems.trans (congrArg _ (Except.error.inj h))⟩
  | ok items =>
      rw [hitems] at h
      obtain ⟨rule, rfl⟩ := exists_broken_of_requireFuture h
      cases he

/-- How a prorated invoice comes by its number: it is given one, or one is drawn for it. -/
inductive GivenOrDrawn : Numbering InvoiceNumber → Prop where
  | given (number : InvoiceNumber) : GivenOrDrawn (pure number)
  | drawn (series : String) : GivenOrDrawn (nextNumber series)

/-- What is wrong with a number that is drawn has nothing to do with prices. -/
theorem GivenOrDrawn.field?_ne (h : GivenOrDrawn numbering) (hon : (numbering.on c).1 = .error e) :
    e.field? ≠ some "unitPrice" := by
  cases h with
  | given number => cases hon
  | drawn series =>
      have hof : InvoiceNumber.ofCounter series c.next = .error e := hon
      rw [InvoiceNumber.field?_of_of hof]
      decide

theorem proratedItems_of_prorate_eq_error (numbered : GivenOrDrawn numbering)
    (he : e.field? = some "unitPrice")
    (h : ((prorate start finish numbering today fresh).on inv c).1.1 = .error e) :
    ∃ fresh, inv.proratedItems start finish fresh = .error e := by
  rw [on_prorate] at h
  split at h
  next hdue =>
    cases hnumber : (numbering.on c).1 with
    | error e' =>
        simp only [hnumber, Except.error_bind] at h
        obtain rfl := Except.error.inj h
        exact absurd he (numbered.field?_ne hnumber)
    | ok number =>
        simp only [hnumber, Except.ok_bind] at h
        rw [create_prorationFields hdue, Except.ok_bind] at h
        obtain ⟨rule, rfl⟩ := exists_broken_of_withItems h
        cases he
  next hdue =>
    obtain rfl := Except.error.inj h
    obtain ⟨rule, rfl⟩ := exists_broken_of_requireFuture hdue
    cases he
  next hitems => exact ⟨fresh, hitems.trans (congrArg _ (Except.error.inj h))⟩

/-- If a longer period is refused for a price, so is a shorter one. -/
theorem proratedItems_of_longer (recurring : inv.type = .recurring)
    (shorter : Lasts start finish days) (longer : Lasts start' finish' days') (hle : days ≤ days')
    (he : e.field? = some "unitPrice")
    (h : inv.proratedItems start' finish' fresh = .error e) (other : Fresh) :
    inv.proratedItems start finish other = .error e := by
  obtain ⟨factor, hfactor, heq⟩ := exists_proratedItems_eq recurring shorter
  obtain ⟨factor', hfactor', heq'⟩ := exists_proratedItems_eq recurring longer
  rw [heq'] at h
  obtain ⟨p, -, hp⟩ := Except.exists_of_mapM_eq_error h
  obtain rfl := eq_worthless_of_proratedItem hfactor' he hp
  rw [heq]
  refine Except.mapM_eq_error (fun p _ hi => ?_) (fun p _ hp => ?_) h
  · -- a price that is low enough for the longer period is so for the shorter one
    obtain ⟨-, hfits⟩ := (exists_proratedItem_iff hfactor').1 hi
    have hfits := (proratedCents_mono hle p.1).trans_lt hfits
    rcases (proratedCents_nonneg days p.1).eq_or_lt with hzero | hpos
    · exact .inr ((proratedItem_eq_worthless_iff hfactor).2 hzero.symm)
    · exact .inl ((exists_proratedItem_iff hfactor).2 ⟨hpos, hfits⟩)
  · -- and less than nothing cannot be left
    have hzero := (proratedItem_eq_worthless_iff hfactor').1 hp
    rw [proratedItem_eq_worthless_iff hfactor]
    exact le_antisymm (hzero ▸ proratedCents_mono hle p.1) (proratedCents_nonneg days p.1)

/-- What is made of the same list twice is compared element by element. -/
theorem forall₂_of_common {α β γ : Type} {R : α → β → Prop} {R' : α → γ → Prop} {S : β → γ → Prop}
    {xs : List α} {ys : List β} {zs : List γ} (h : List.Forall₂ R xs ys)
    (h' : List.Forall₂ R' xs zs) (hS : ∀ x y z, R x y → R' x z → S y z) :
    List.Forall₂ S ys zs := by
  induction h generalizing zs with
  | nil =>
      cases h'
      exact .nil
  | cons hy _ ih =>
      cases h' with
      | cons hz h' => exact .cons (hS _ _ _ hy hz) (ih h')

/-- What an invoice is charged for a number of months of thirty days. -/
structure ChargesMonths (inv : Invoice) (start finish : Given) (months : ℕ) : Prop where
  /-- nothing is refused for its price below `10 ^ 26` units -/
  check : ∀ today, ((checkProration start finish today).on inv).1 = .ok () ↔
    inv.dueDate.le today = false ∧ ∀ item ∈ inv.items, months * item.unitPrice.value < 10 ^ 26
  exact : ∀ numbering today fresh c new,
    ((prorate start finish numbering today fresh).on inv c).1.1 = .ok new →
      List.Forall₂ (fun item i : LineItem => i.unitPrice.currency = item.unitPrice.currency ∧
        i.unitPrice.value = months * item.unitPrice.value) inv.items new.items

theorem chargesMonths (recurring : inv.type = .recurring)
    (lasts : Lasts start finish (30 * months)) : inv.ChargesMonths start finish months where
  check today := by
    obtain ⟨factor, hfactor, heq⟩ := exists_proratedItems_eq recurring lasts
    have hwhole := nearest_months lasts.le
    have hitem : ∀ item id, (∃ i, proratedItem factor item id = .ok i) ↔
        months * item.unitPrice.value < 10 ^ 26 := by
      intro item id
      obtain ⟨hfits, hcents⟩ := proratedCents_of_whole hfactor hwhole item
      rw [exists_proratedItem_iff hfactor, ← hfits, and_iff_right_iff_imp]
      intro h
      have hmonths : 0 < months := by
        have hdays := lasts.pos
        omega
      rw [hcents h]
      exact mul_pos (Int.natCast_pos.2 hmonths) item.unitPrice_above_zero
    have hall : (∀ p ∈ inv.items.zipIdx, months * p.1.unitPrice.value < (10 : ℚ) ^ 26) ↔
        ∀ item ∈ inv.items, months * item.unitPrice.value < (10 : ℚ) ^ 26 := by
      conv_rhs => rw [← List.zipIdx_map_fst 0 inv.items]
      rw [List.forall_mem_map]
    rw [on_checkProration, heq, Except.bind_eq_ok_iff, exists_and_right,
      Except.exists_mapM_eq_ok_iff, requireFuture_eq_ok_iff, and_comm, ← hall]
    simp only [hitem]
  exact numbering today fresh c new h := by
    obtain ⟨factor, hfactor, -⟩ := forall₂_of_prorate lasts h
    refine (forall₂_pricedFor lasts h).imp fun item i hi => ⟨hi.currency, ?_⟩
    have hcents := (proratedCents_of_whole hfactor (nearest_months lasts.le) item).2 hi.fits
    rw [Money.value, Amount.value, hi.cents, hcents, Money.value, Amount.value]
    push_cast
    ring

/-- What is prorated for a longer period costs at least as much, item by item. If a price is refused
for the longer period, because nothing is left of it, it is refused for the shorter one, however the
numbers are obtained. And for months of thirty days, the prices are multiplied by their number,
without any rounding. -/
theorem prices_grow_with_days (recurring : inv.type = .recurring)
    (shorter : Lasts start finish days) (longer : Lasts start' finish' days')
    (hle : days ≤ days') :
    (∀ numbering numbering' today today' fresh fresh' c c' new new',
      ((prorate start finish numbering today fresh).on inv c).1.1 = .ok new →
      ((prorate start' finish' numbering' today' fresh').on inv c').1.1 = .ok new' →
        List.Forall₂ (fun i i' => i.unitPrice.currency = i'.unitPrice.currency ∧
          i.unitPrice.value ≤ i'.unitPrice.value) new.items new'.items) ∧
    (∀ e, e.field? = some "unitPrice" →
      ((∃ today, ((checkProration start' finish' today).on inv).1 = .error e) ∨
        ∃ numbering today fresh c, GivenOrDrawn numbering ∧
          ((prorate start' finish' numbering today fresh).on inv c).1.1 = .error e) →
        inv.PriceRefused start finish e) ∧
    ∀ months, days = 30 * months → inv.ChargesMonths start finish months := by
  refine ⟨fun numbering numbering' today today' fresh fresh' c c' new new' h h' => ?_,
    fun e he hrefused => ?_, fun months hdays => chargesMonths recurring (hdays ▸ shorter)⟩
  · refine forall₂_of_common (forall₂_pricedFor shorter h) (forall₂_pricedFor longer h')
      fun item i i' hi hi' => ⟨hi.currency.trans hi'.currency.symm, ?_⟩
    rw [Money.value, Money.value, Amount.value_le_iff, hi.cents, hi'.cents]
    exact proratedCents_mono hle item
  · have hitems : ∃ fresh, inv.proratedItems start' finish' fresh = .error e := by
      rcases hrefused with ⟨today, h⟩ | ⟨numbering, today, fresh, c, numbered, h⟩
      · exact proratedItems_of_check he h
      · exact proratedItems_of_prorate_eq_error numbered he h
    obtain ⟨fresh, hitems⟩ := hitems
    exact priceRefused_of_proratedItems
      (proratedItems_of_longer recurring shorter longer hle he hitems)

/-- A monthly invoice of one item at 5.00 USD, prorated between two days. -/
def sampleProrated (start finish : Date) : Except Failure Invoice :=
  ((prorate (.day start) (.day finish) (pure sample.number) sampleDay (.following 1)).on
    (sampleMonthly.run sampleSending) .start).1.1

/-- For January, 5.00 USD stay so, and for sixty days they are doubled. Of 0.01 USD nothing is left
in two weeks, and so nothing is left in a day. -/
theorem prices_grow_with_days_sample :
    (∃ new new', sampleProrated sampleDay ⟨2026, 1, 31, by decide⟩ = .ok new ∧
      sampleProrated sampleDay ⟨2026, 3, 2, by decide⟩ = .ok new' ∧
      List.Forall₂ (fun i i' => i.unitPrice.currency = i'.unitPrice.currency ∧
        i.unitPrice.value ≤ i'.unitPrice.value) new.items new'.items ∧
      new'.items.map (·.unitPrice.amount.signedCents) = [1000]) ∧
    (sampleMonthly.run sampleSending).ChargesMonths (.day sampleDay)
      (.day ⟨2026, 1, 31, by decide⟩) 1 ∧
    (sampleMonthly.run sampleGift).PriceRefused (.day sampleDay) (.day ⟨2026, 1, 2, by decide⟩)
      worthless := by
  have hdays : Lasts (.day sampleDay) (.day ⟨2026, 1, 2, by decide⟩) 1 :=
    lasts_of_ordinal_lt (by decide)
  have hweeks : Lasts (.day sampleDay) (.day ⟨2026, 1, 15, by decide⟩) 14 :=
    lasts_of_ordinal_lt (by decide)
  have hmonth : Lasts (.day sampleDay) (.day ⟨2026, 1, 31, by decide⟩) 30 :=
    lasts_of_ordinal_lt (by decide)
  have hmonths : Lasts (.day sampleDay) (.day ⟨2026, 3, 2, by decide⟩) 60 :=
    lasts_of_ordinal_lt (by decide)
  have hjanuary : (sampleProrated sampleDay ⟨2026, 1, 31, by decide⟩).map
      (fun new => new.items.map (·.unitPrice.amount.signedCents)) = .ok [500] := by decide +kernel
  have htwice : (sampleProrated sampleDay ⟨2026, 3, 2, by decide⟩).map
      (fun new => new.items.map (·.unitPrice.amount.signedCents)) = .ok [1000] := by decide +kernel
  have hrefused : ((checkProration (.day sampleDay) (.day ⟨2026, 1, 15, by decide⟩) sampleDay).on
      (sampleMonthly.run sampleGift)).1 = .error worthless := by decide +kernel
  obtain ⟨new, hnew, -⟩ := Except.map_eq_ok_iff.1 hjanuary
  obtain ⟨new', hnew', hcents⟩ := Except.map_eq_ok_iff.1 htwice
  have hrecurring : (sampleMonthly.run sampleSending).type = .recurring := by decide +kernel
  have hrecurring' : (sampleMonthly.run sampleGift).type = .recurring := by decide +kernel
  obtain ⟨hprices, -, hcharges⟩ := prices_grow_with_days hrecurring hmonth hmonths (by decide)
  obtain ⟨-, hworthless, -⟩ := prices_grow_with_days hrecurring' hdays hweeks (by decide)
  exact ⟨⟨new, new', hnew, hnew', hprices _ _ _ _ _ _ _ _ _ _ hnew hnew', hcents⟩,
    hcharges 1 rfl, hworthless worthless rfl (.inl ⟨sampleDay, hrefused⟩)⟩

end Invoice

end Billing
