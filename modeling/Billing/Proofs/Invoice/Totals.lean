import Billing.Snapshot.Basic
import Billing.Proofs.Invoice.Currency

set_option autoImplicit false

/-! # What a total says about the items

None of the amounts of an item is below zero (`Invoice.LineAmount`). So a sum over the items can be
computed if the items are in one currency and the exact sum has few enough digits, and then it is
that sum (`Invoice.LineAmount.sumOf_eq_ok_iff`). Each item of an invoice with a total has a total of
its own, an invoice whose balance can be computed is in one currency
(`Invoice.oneCurrency_of_balance`), and it has a snapshot (`Snapshot.exists_of_balance`).
-/

namespace Billing

/-! ## Nothing is below zero -/

namespace Amount

theorem signedCents_nonneg {a : Amount} (h : a.negative = false ∨ a.cents = 0) :
    0 ≤ a.signedCents := by
  unfold signedCents
  rcases h with h | h
  · simp [h]
  · simp [h]

/-- Rounding to cents keeps the sign, and zero. -/
theorem round_eq_ok {d : Decimal} {a : Amount} (h : Amount.round d = .ok a) :
    a.negative = d.negative ∧ (d.coefficient = 0 → a.cents = 0) := by
  obtain ⟨hnegative, hcents⟩ := eq_of_round h
  refine ⟨hnegative, fun hzero => ?_⟩
  rw [hcents, Decimal.scaled]
  exact if_pos (decide_eq_true hzero)

end Amount

namespace Decimal

theorem coefficient_of_round_zero {negative : Bool} {den : Nat} {ideal : Int} {d : Decimal}
    (h : round negative 0 den ideal = .ok d) : d.coefficient = 0 := by
  obtain rfl := Except.ok.inj (round_zero negative den ideal ▸ h)
  rfl

theorem negative_of_isPositive {d : Decimal} (h : d.isPositive = true) : d.negative = false := by
  simp only [isPositive, Bool.and_eq_true, Bool.not_eq_true'] at h
  exact h.1

/-- A percentage with a minus sign is zero. -/
theorem coefficient_of_percentage {d : Decimal} (h : isPercentage d = true)
    (hneg : d.negative = true) : d.coefficient = 0 := by
  by_contra hne
  simp [isPercentage, le, cmp, isNegative, isZero, zero, hneg, hne] at h

end Decimal

/-- A tax in the steps in which it is computed. -/
theorem TaxRate.taxOn_eq_ok_iff {t : TaxRate} {base : Decimal} {tax : Amount} :
    t.taxOn base = .ok tax ↔ ∃ product share, base.mul t.rate = .ok product ∧
      product.div Decimal.hundred = .ok share ∧ Amount.round share = .ok tax := by
  simp [taxOn, Except.bind_eq_ok_iff, ofSignal_eq_ok_iff]

namespace LineItem

variable {i : LineItem} {m : Money}

theorem subtotal_eq_ok (h : i.subtotal = .ok m) :
    m.currency = i.unitPrice.currency ∧ m.amount.negative = false := by
  obtain ⟨hcurrency, product, hproduct, hround⟩ := Money.scale_eq_ok_iff.1 h
  refine ⟨hcurrency, ?_⟩
  -- both factors are positive, and rounding keeps the sign of the product
  have hprice : i.unitPrice.amount.negative = false := by
    have hpos := i.unitPrice_above_zero
    rw [Amount.negative_eq_of_ne_zero hpos.ne', decide_eq_false_iff_not]
    exact hpos.not_gt
  rw [(Amount.round_eq_ok hround).1, Decimal.negative_of_round_eq_ok hproduct]
  simp [Amount.toDecimal, hprice, Decimal.negative_of_isPositive i.quantity_pos]

theorem subtotal_nonneg (h : i.subtotal = .ok m) : 0 ≤ m.amount.signedCents :=
  Amount.signedCents_nonneg (.inl (subtotal_eq_ok h).2)

theorem tax_eq_ok_iff :
    i.tax = .ok m ↔ ∃ subtotal tax, i.subtotal = .ok subtotal ∧
      i.taxRate.taxOn subtotal.amount.toDecimal = .ok tax ∧ m = ⟨tax, subtotal.currency⟩ := by
  simp [LineItem.tax, Except.bind_eq_ok_iff, eq_comm (b := m)]

/-- Without a rate there is no tax. -/
theorem cents_of_tax (hzero : i.taxRate.rate.coefficient = 0) (h : i.tax = .ok m) :
    m.amount.cents = 0 := by
  obtain ⟨subtotal, tax, -, htax, rfl⟩ := tax_eq_ok_iff.1 h
  obtain ⟨product, share, hproduct, hshare, hround⟩ := TaxRate.taxOn_eq_ok_iff.1 htax
  rw [Decimal.mul, hzero, Nat.mul_zero] at hproduct
  rw [Decimal.div, if_neg (by decide), Decimal.coefficient_of_round_zero hproduct] at hshare
  exact (Amount.round_eq_ok hround).2 (Decimal.coefficient_of_round_zero hshare)

theorem tax_eq_ok (h : i.tax = .ok m) :
    m.currency = i.unitPrice.currency ∧ 0 ≤ m.amount.signedCents := by
  have hnone := fun hzero => cents_of_tax hzero h
  obtain ⟨subtotal, tax, hsubtotal, htax, rfl⟩ := tax_eq_ok_iff.1 h
  obtain ⟨hcurrency, hsign⟩ := subtotal_eq_ok hsubtotal
  refine ⟨hcurrency, Amount.signedCents_nonneg ?_⟩
  obtain ⟨product, share, hproduct, hshare, hround⟩ := TaxRate.taxOn_eq_ok_iff.1 htax
  rw [Decimal.div, if_neg (by decide)] at hshare
  cases hrate : i.taxRate.rate.negative with
  | false =>
      -- the signs of the factors carry over to the product and to the share of it
      refine .inl ?_
      rw [(Amount.round_eq_ok hround).1, Decimal.negative_of_round_eq_ok hshare,
        Decimal.negative_of_round_eq_ok hproduct]
      simp [Amount.toDecimal, hsign, hrate, Decimal.hundred]
  | true =>
      -- a rate with a minus sign is zero, and so is the tax
      exact .inr (hnone (Decimal.coefficient_of_percentage i.taxRate.isPercentage hrate))

end LineItem

/-! ## Sums over the items -/

namespace Money

variable {a b c : Money}

/-- The cents of money that has been computed, and none if it could not be. -/
def centsOf : Except Failure Money → ℤ
  | .ok m => m.amount.signedCents
  | .error _ => 0

/-- Where nothing is below zero, a sum has no minus sign. -/
theorem add_eq_ok_iff_of_nonneg (ha : a.amount.negative = false)
    (hb : 0 ≤ b.amount.signedCents) :
    a.add b = .ok c ↔
      b.currency = a.currency ∧ c.currency = a.currency ∧ c.amount.negative = false ∧
        c.amount.signedCents = a.amount.signedCents + b.amount.signedCents := by
  have hnonneg := Amount.signedCents_nonneg (.inl ha)
  have hsign : (if a.amount.signedCents + b.amount.signedCents = 0
      then a.amount.negative && b.amount.negative
      else decide (a.amount.signedCents + b.amount.signedCents < 0)) = false := by
    split
    · rw [ha, Bool.false_and]
    · rw [decide_eq_false_iff_not]
      omega
  rw [add_eq_ok_iff, Amount.IsSum, hsign, eq_comm, and_comm (b := c.amount.negative = false)]

theorem exists_add_eq_ok (hcurrency : b.currency = a.currency) (ha : a.amount.negative = false)
    (hb : 0 ≤ b.amount.signedCents)
    (fits : a.amount.signedCents + b.amount.signedCents < tenTo Decimal.precision) :
    ∃ c, a.add b = .ok c := by
  have hnonneg := Amount.signedCents_nonneg (.inl ha)
  obtain ⟨sum, hsum⟩ := Amount.exists_isSum (a := a.amount) (b := b.amount) (by omega)
  exact ⟨⟨sum, a.currency⟩, add_eq_ok_iff.2 ⟨hcurrency.symm, rfl, hsum⟩⟩

end Money

namespace Invoice

variable {items : List LineItem} {amount : LineItem → Except Failure Money} {start total : Money}
  {inv : Invoice} {i : LineItem}

/-- The cents that one of the amounts of the items comes to. -/
def centsIn (amount : LineItem → Except Failure Money) (items : List LineItem) : ℤ :=
  (items.map fun i => Money.centsOf (amount i)).sum

@[simp] theorem centsIn_nil : centsIn amount [] = 0 := rfl

theorem centsIn_cons :
    centsIn amount (i :: items) = Money.centsOf (amount i) + centsIn amount items := by
  rw [centsIn, List.map_cons, List.sum_cons, ← centsIn]

/-- An amount of an item: in the currency of its price, and not below zero. -/
structure LineAmount (amount : LineItem → Except Failure Money) : Prop where
  currency : ∀ {i m}, amount i = .ok m → m.currency = i.unitPrice.currency
  nonneg : ∀ {i m}, amount i = .ok m → 0 ≤ m.amount.signedCents

theorem lineAmount_subtotal : LineAmount LineItem.subtotal :=
  ⟨fun h => (LineItem.subtotal_eq_ok h).1, LineItem.subtotal_nonneg⟩

theorem lineAmount_tax : LineAmount LineItem.tax :=
  ⟨fun h => (LineItem.tax_eq_ok h).1, fun h => (LineItem.tax_eq_ok h).2⟩

namespace LineAmount

theorem centsOf_nonneg (h : LineAmount amount) (i : LineItem) :
    0 ≤ Money.centsOf (amount i) := by
  unfold Money.centsOf
  split
  next m hm => exact h.nonneg hm
  next => exact le_rfl

theorem nonneg_of_mem_map (h : LineAmount amount) :
    ∀ n ∈ items.map fun i => Money.centsOf (amount i), 0 ≤ n := by
  intro n hn
  obtain ⟨i, -, rfl⟩ := List.mem_map.1 hn
  exact h.centsOf_nonneg i

theorem centsIn_nonneg (h : LineAmount amount) (items : List LineItem) :
    0 ≤ centsIn amount items :=
  List.sum_nonneg h.nonneg_of_mem_map

theorem centsOf_le_centsIn (h : LineAmount amount) (hi : i ∈ items) :
    Money.centsOf (amount i) ≤ centsIn amount items :=
  List.single_le_sum h.nonneg_of_mem_map _ (List.mem_map_of_mem hi)

/-- What is left out is not below zero. -/
theorem centsIn_filter_le (h : LineAmount amount) (items : List LineItem) (p : LineItem → Bool) :
    centsIn amount (items.filter p) ≤ centsIn amount items :=
  List.Sublist.sum_le_sum (List.filter_sublist.map _) h.nonneg_of_mem_map

/-- What a sum over items is, from any sum that has been reached before. No addition can fail unless
the whole does, since nothing in it is below zero. -/
theorem sumFrom_eq_ok_iff (h : LineAmount amount) (hstart : start.amount.negative = false) :
    items.foldlM (fun sum item => do sum.add (← amount item)) start = .ok total ↔
      (∀ i ∈ items, i.unitPrice.currency = start.currency ∧ ∃ m, amount i = .ok m) ∧
        total.currency = start.currency ∧ total.amount.negative = false ∧
        total.amount.signedCents = start.amount.signedCents + centsIn amount items := by
  induction items generalizing start with
  | nil =>
      rw [List.foldlM_nil, Except.pure_eq_ok, Except.ok.injEq]
      constructor
      · rintro rfl
        exact ⟨by simp, rfl, hstart, by simp⟩
      · rintro ⟨-, hcurrency, hsign, hcents⟩
        rw [centsIn_nil, add_zero] at hcents
        cases start
        cases total
        simp only [Money.mk.injEq]
        exact ⟨Amount.ext_signed (hstart.trans hsign.symm) hcents.symm, hcurrency.symm⟩
  | cons i items ih =>
      rw [List.foldlM_cons, Except.bind_eq_ok_iff]
      constructor
      · rintro ⟨sum, hsum, hrest⟩
        obtain ⟨m, hm, hsum⟩ := Except.bind_eq_ok_iff.1 hsum
        obtain ⟨hprice, hcurrency, hsign, hcents⟩ :=
          (Money.add_eq_ok_iff_of_nonneg hstart (h.nonneg hm)).1 hsum
        obtain ⟨hitems, htotal⟩ := (ih hsign).1 hrest
        rw [hcurrency, hcents, add_assoc] at htotal
        rw [centsIn_cons, hm]
        refine ⟨fun j hj => ?_, htotal⟩
        rcases List.mem_cons.1 hj with rfl | hj
        · exact ⟨(h.currency hm).symm.trans hprice, m, hm⟩
        · rw [← hcurrency]
          exact hitems j hj
      · rintro ⟨hitems, hcurrency, hsign, hcents⟩
        obtain ⟨hprice, m, hm⟩ := hitems i List.mem_cons_self
        rw [centsIn_cons, hm, ← add_assoc] at hcents
        -- the sum so far is at most the whole, which has few enough digits
        have hupper := total.amount.natAbs_signedCents_lt
        have hrest := h.centsIn_nonneg items
        obtain ⟨sum, hsum⟩ := Money.exists_add_eq_ok ((h.currency hm).trans hprice) hstart
          (h.nonneg hm) (by simp only [Money.centsOf] at hcents; omega)
        obtain ⟨-, hsumCurrency, hsumSign, hsumCents⟩ :=
          (Money.add_eq_ok_iff_of_nonneg hstart (h.nonneg hm)).1 hsum
        refine ⟨sum, Except.bind_eq_ok_iff.2 ⟨m, hm, hsum⟩, (ih hsumSign).2 ⟨?_, ?_, hsign, ?_⟩⟩
        · rw [hsumCurrency]
          exact fun j hj => hitems j (List.mem_cons_of_mem i hj)
        · rw [hsumCurrency, hcurrency]
        · rw [hsumCents]
          exact hcents

theorem sumOf_eq_ok_iff (h : LineAmount amount) :
    inv.sumOf amount = .ok total ↔
      (∀ i ∈ inv.items, i.unitPrice.currency = inv.currency ∧ ∃ m, amount i = .ok m) ∧
        total.currency = inv.currency ∧ total.amount.negative = false ∧
        total.amount.signedCents = centsIn amount inv.items := by
  have hzero : (Money.zero inv.currency).amount.signedCents = 0 := rfl
  rw [sumOf, h.sumFrom_eq_ok_iff rfl, hzero, zero_add]
  rfl

end LineAmount

/-- The subtotal and the tax of every item of an invoice with a total, and how they compare with
the total. -/
theorem itemSums_of_total (h : inv.total = .ok total) :
    total.currency = inv.currency ∧ ∀ i ∈ inv.items, ∃ subtotal tax,
      i.subtotal = .ok subtotal ∧ i.tax = .ok tax ∧ subtotal.currency = inv.currency ∧
        tax.currency = inv.currency ∧
        subtotal.amount.signedCents + tax.amount.signedCents ≤ total.amount.signedCents := by
  obtain ⟨subtotal, hsubtotal, h⟩ := Except.bind_eq_ok_iff.1 h
  obtain ⟨tax, htax, h⟩ := Except.bind_eq_ok_iff.1 h
  obtain ⟨-, hcurrency, hcents, -⟩ := Money.add_eq_ok_iff.1 h
  obtain ⟨hsubtotals, hsubCurrency, -, hsum⟩ := lineAmount_subtotal.sumOf_eq_ok_iff.1 hsubtotal
  obtain ⟨htaxes, -, -, htaxSum⟩ := lineAmount_tax.sumOf_eq_ok_iff.1 htax
  refine ⟨hcurrency.trans hsubCurrency, fun i hi => ?_⟩
  obtain ⟨hprice, m, hm⟩ := hsubtotals i hi
  obtain ⟨-, t, ht⟩ := htaxes i hi
  have hmle := lineAmount_subtotal.centsOf_le_centsIn hi
  have htle := lineAmount_tax.centsOf_le_centsIn hi
  rw [hm, ← hsum] at hmle
  rw [ht, ← htaxSum] at htle
  refine ⟨m, t, hm, ht, (lineAmount_subtotal.currency hm).trans hprice,
    (lineAmount_tax.currency ht).trans hprice, ?_⟩
  rw [hcents]
  exact add_le_add hmle htle

theorem itemTotal_of_total (h : inv.total = .ok total) (hi : i ∈ inv.items) :
    ∃ m, i.total = .ok m := by
  obtain ⟨subtotal, tax, hsubtotal, htax, hcurrency, htaxCurrency, hle⟩ :=
    (itemSums_of_total h).2 i hi
  -- the total of an item is at most that of the invoice, so it has few enough digits
  have hupper := total.amount.natAbs_signedCents_lt
  obtain ⟨m, hm⟩ := Money.exists_add_eq_ok (htaxCurrency.trans hcurrency.symm)
    (LineItem.subtotal_eq_ok hsubtotal).2 (LineItem.tax_eq_ok htax).2 (by omega)
  refine ⟨m, ?_⟩
  simp only [LineItem.total, hsubtotal, htax, Except.ok_bind]
  exact hm

/-- An invoice whose balance can be computed is in one currency. -/
theorem oneCurrency_of_balance {balance : Money} (h : inv.balanceDue = .ok balance) :
    inv.OneCurrency := by
  obtain ⟨total, htotal, hbalance⟩ := Except.bind_eq_ok_iff.1 h
  obtain ⟨hcurrency, hitems⟩ := itemSums_of_total htotal
  constructor
  · intro i hi
    obtain ⟨subtotal, -, hsubtotal, -, hsub, -⟩ := hitems i hi
    exact (LineItem.subtotal_eq_ok hsubtotal).1.symm.trans hsub
  · intro m hm
    -- the balance is a difference, so both sides of it are in one currency
    have hpaid := (Money.subtract_eq_ok_iff.1 hbalance).1
    rw [hcurrency, Invoice.paid, hm, Option.getD_some] at hpaid
    exact hpaid.symm

end Invoice

/-- An invoice whose balance can be computed has a snapshot. -/
theorem Snapshot.exists_of_balance {inv : Invoice} {balance : Money}
    (h : inv.balanceDue = .ok balance) : ∃ s, Snapshot.of inv = .ok s := by
  obtain ⟨total, htotal, -⟩ := Except.bind_eq_ok_iff.1 h
  obtain ⟨subtotal, hsubtotal, hrest⟩ := Except.bind_eq_ok_iff.1 htotal
  obtain ⟨totalTax, htotalTax, -⟩ := Except.bind_eq_ok_iff.1 hrest
  obtain ⟨images, himages⟩ : ∃ images, inv.items.mapM ItemImage.of = .ok images := by
    have hitem : ∀ i ∈ inv.items, ∃ image, ItemImage.of i = .ok image := by
      intro i hi
      obtain ⟨m, hm⟩ := Invoice.itemTotal_of_total htotal hi
      simp only [ItemImage.of, hm, Except.ok_bind]
      exact ⟨_, rfl⟩
    exact Except.exists_mapM_eq_ok hitem
  simp only [Snapshot.of, TotalsImage.of, himages, hsubtotal, htotalTax, htotal, h, Except.ok_bind]
  exact ⟨_, rfl⟩

end Billing
