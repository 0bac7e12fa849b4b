import Billing.Proofs.Decimal.Value
import Billing.Proofs.Invoice.Creation
import Billing.Proofs.Invoice.ItemSums

set_option autoImplicit false

/-! # The tax under each rate

The items are gone through once, and each adds its tax to the line of its rate. What is kept on the
way (`Invoice.Collected`): the lines are those of the rates that have been met, what they hold under
a rate is the tax of the items at that rate, and together they hold all of the tax so far. So in the
end they take the total tax apart (`Invoice.tax_breakdown_partitions`).
-/

/-! ## The first of equal elements -/

namespace List

variable {α : Type} {r : α → α → Bool} {as bs seen : List α} {x : α}

theorem eraseDupsBy_loop_append :
    eraseDupsBy.loop r (as ++ bs) seen =
      eraseDupsBy.loop r bs (eraseDupsBy.loop r as seen).reverse := by
  induction as generalizing seen with
  | nil => simp [eraseDupsBy.loop]
  | cons a as ih =>
      simp only [cons_append, eraseDupsBy.loop]
      split
      · exact ih
      · exact ih

/-- An element at the end stays if it is none of those that are kept already. -/
theorem eraseDupsBy_concat :
    (as ++ [x]).eraseDupsBy r =
      if (as.eraseDupsBy r).any (r x) then as.eraseDupsBy r else as.eraseDupsBy r ++ [x] := by
  rw [eraseDupsBy, eraseDupsBy_loop_append, ← eraseDupsBy]
  cases h : (as.eraseDupsBy r).any (r x) with
  | true => simp [eraseDupsBy.loop, h]
  | false => simp [eraseDupsBy.loop, h]

theorem pairwise_eraseDupsBy (as : List α) :
    (as.eraseDupsBy r).Pairwise fun a b => r b a = false := by
  induction as using reverseRecOn with
  | nil => exact Pairwise.nil
  | append_singleton as x ih =>
      rw [eraseDupsBy_concat]
      split
      · exact ih
      · next hnew =>
        rw [any_eq_true] at hnew
        refine pairwise_append.2 ⟨ih, pairwise_singleton _ _, fun a ha b hb => ?_⟩
        rw [mem_singleton.1 hb, ← Bool.not_eq_true]
        exact fun h => hnew ⟨a, ha, h⟩

end List

namespace Billing

/-- What rates are told apart by: the value of the percentage, however it is written, and the kind
of tax. -/
def TaxRate.key (t : TaxRate) : ℚ × TaxKind := (t.rate.value, t.kind)

theorem TaxRate.same_eq (a b : TaxRate) : a.same b = decide (a.key = b.key) := by
  rw [Bool.eq_iff_iff, same, Bool.and_eq_true, Decimal.same_iff, beq_iff_eq, decide_eq_true_iff,
    key, key, Prod.mk.injEq]

namespace Invoice

variable {items : List LineItem} {lines : List TaxLine} {rate t : TaxRate} {amount tax : Money}
  {currency : Currency} {inv : Invoice} {i : LineItem} {line : TaxLine}

/-! ## The rates that items are taxed at -/

/-- The rates of items, without zero, each where it first appears. -/
def taxedRates (items : List LineItem) : List TaxRate :=
  ((items.map LineItem.taxRate).filter fun t => !t.isZero).eraseDupsBy fun a b => a.key = b.key

theorem taxedRates_concat_of_isZero (h : i.taxRate.isZero = true) :
    taxedRates (items ++ [i]) = taxedRates items := by
  simp [taxedRates, h]

theorem taxedRates_concat (h : i.taxRate.isZero = false) :
    taxedRates (items ++ [i]) =
      if (taxedRates items).any fun t => i.taxRate.key = t.key then taxedRates items
      else taxedRates items ++ [i.taxRate] := by
  unfold taxedRates
  rw [List.map_append, List.filter_append, List.map_singleton, List.filter_singleton, h]
  exact List.eraseDupsBy_concat

/-- The items at a rate. -/
def itemsAt (items : List LineItem) (t : TaxRate) : List LineItem :=
  items.filter fun i => i.taxRate.key = t.key

theorem centsOf_tax_of_isZero (h : i.taxRate.isZero = true) : Money.centsOf i.tax = 0 := by
  unfold Money.centsOf
  split
  next m hm =>
    have hcents := LineItem.cents_of_tax (of_decide_eq_true h) hm
    simp [Amount.signedCents, hcents]
  next => rfl

theorem centsIn_itemsAt_concat :
    centsIn LineItem.tax (itemsAt (items ++ [i]) t) =
      if i.taxRate.key = t.key then
        centsIn LineItem.tax (itemsAt items t) + Money.centsOf i.tax
      else centsIn LineItem.tax (itemsAt items t) := by
  unfold itemsAt
  rw [List.filter_append, centsIn_append, List.filter_singleton]
  by_cases h : i.taxRate.key = t.key
  · simp [h, centsIn_cons]
  · simp [h]

/-! ## Setting the tax under a rate -/

/-- No two lines are for one rate. -/
def OneLineEach (lines : List TaxLine) : Prop := lines.Pairwise fun a b => a.rate.key ≠ b.rate.key

/-- What lines come to, in cents. -/
def centsOfLines (lines : List TaxLine) : ℤ :=
  (lines.map fun line => line.amount.amount.signedCents).sum

theorem centsOfLines_cons :
    centsOfLines (line :: lines) = line.amount.amount.signedCents + centsOfLines lines := by
  unfold centsOfLines
  rw [List.map_cons, List.sum_cons]

theorem taxUnder_cons :
    taxUnder currency (line :: lines) t =
      if line.rate.key = t.key then line.amount else taxUnder currency lines t := by
  unfold taxUnder
  rw [List.find?_cons, TaxRate.same_eq]
  by_cases h : line.rate.key = t.key
  · simp [h]
  · simp [h]

theorem setTax_nil : setTax [] rate amount = [⟨rate, amount⟩] := rfl

/-- The line of the rate is set, and the others stay as they are. -/
theorem setTax_cons (each : OneLineEach (line :: lines)) :
    setTax (line :: lines) rate amount =
      if line.rate.key = rate.key then ⟨line.rate, amount⟩ :: lines
      else line :: setTax lines rate amount := by
  obtain ⟨hline, -⟩ := List.pairwise_cons.1 each
  unfold setTax
  simp only [List.any_cons, List.map_cons, TaxRate.same_eq, decide_eq_true_eq]
  by_cases h : line.rate.key = rate.key
  · -- the other lines are for other rates
    have hothers : lines.map (fun other =>
        if other.rate.key = rate.key then { other with amount } else other) = lines := by
      calc
        _ = lines.map fun other => other := List.map_congr_left fun other hother =>
          if_neg (h ▸ (hline other hother).symm)
        _ = lines := List.map_id' lines
    simp [h, hothers]
  · simp only [h, decide_false, Bool.false_or, if_false]
    split
    · rfl
    · rfl

theorem rates_setTax (each : OneLineEach lines) :
    (setTax lines rate amount).map TaxLine.rate =
      if (lines.map TaxLine.rate).any fun t => rate.key = t.key then lines.map TaxLine.rate
      else lines.map TaxLine.rate ++ [rate] := by
  induction lines with
  | nil => rfl
  | cons line lines ih =>
      rw [setTax_cons each]
      by_cases h : line.rate.key = rate.key
      · simp [h]
      · have hne : rate.key ≠ line.rate.key := fun heq => h heq.symm
        rw [if_neg h, List.map_cons, ih (List.pairwise_cons.1 each).2]
        simp only [List.map_cons, List.any_cons, hne, decide_false, Bool.false_or]
        split
        · rfl
        · rfl

theorem taxUnder_setTax (each : OneLineEach lines) :
    taxUnder currency (setTax lines rate amount) t =
      if rate.key = t.key then amount else taxUnder currency lines t := by
  induction lines with
  | nil => rw [setTax_nil, taxUnder_cons]
  | cons line lines ih =>
      rw [setTax_cons each, taxUnder_cons]
      by_cases h : line.rate.key = rate.key
      · rw [if_pos h, taxUnder_cons, h]
        split
        · rfl
        · rfl
      · rw [if_neg h, taxUnder_cons, ih (List.pairwise_cons.1 each).2]
        by_cases ht : line.rate.key = t.key
        · rw [if_pos ht, if_neg fun heq => h (ht.trans heq.symm), if_pos ht]
        · rw [if_neg ht, if_neg ht]

/-- Setting a line changes what the lines come to by as much as it changes the line. -/
theorem centsOfLines_setTax (currency : Currency) (rate : TaxRate) (amount : Money)
    (each : OneLineEach lines) :
    centsOfLines (setTax lines rate amount) +
        (taxUnder currency lines rate).amount.signedCents =
      centsOfLines lines + amount.amount.signedCents := by
  induction lines with
  | nil =>
      have hnone : (taxUnder currency [] rate).amount.signedCents = 0 := rfl
      rw [setTax_nil, centsOfLines_cons, hnone]
      ring
  | cons line lines ih =>
      rw [setTax_cons each, taxUnder_cons, centsOfLines_cons]
      by_cases h : line.rate.key = rate.key
      · rw [if_pos h, if_pos h, centsOfLines_cons]
        ring
      · have hrest := ih (List.pairwise_cons.1 each).2
        rw [if_neg h, if_neg h, centsOfLines_cons]
        omega

theorem taxUnder_of_mem (each : OneLineEach lines) (hline : line ∈ lines) :
    taxUnder currency lines line.rate = line.amount := by
  induction lines with
  | nil => cases hline
  | cons first lines ih =>
      obtain ⟨hfirst, heach⟩ := List.pairwise_cons.1 each
      rw [taxUnder_cons]
      rcases List.mem_cons.1 hline with rfl | hline
      · rw [if_pos rfl]
      · rw [if_neg (hfirst line hline), ih heach hline]

/-! ## Going through the items -/

/-- What the lines are when items have been gone through. -/
structure Collected (currency : Currency) (items : List LineItem) (lines : List TaxLine) :
    Prop where
  rates : lines.map TaxLine.rate = taxedRates items
  amounts : ∀ t, (taxUnder currency lines t).currency = currency ∧
    (taxUnder currency lines t).amount.negative = false ∧
    (taxUnder currency lines t).amount.signedCents = centsIn LineItem.tax (itemsAt items t)
  sum : centsOfLines lines = centsIn LineItem.tax items

theorem collected_nil : Collected currency [] [] where
  rates := rfl
  amounts _ := ⟨rfl, rfl, rfl⟩
  sum := rfl

namespace Collected

theorem oneLineEach (h : Collected currency items lines) : OneLineEach lines := by
  have hrates : (lines.map TaxLine.rate).Pairwise fun a b => decide (b.key = a.key) = false := by
    rw [h.rates]
    exact List.pairwise_eraseDupsBy _
  refine (List.pairwise_map.1 hrates).imp fun hab heq => ?_
  exact of_decide_eq_false hab heq.symm

/-- An item without tax is passed over. -/
theorem skip (h : Collected currency items lines) (hzero : i.taxRate.isZero = true) :
    Collected currency (items ++ [i]) lines := by
  have hnone := centsOf_tax_of_isZero hzero
  constructor
  · rw [taxedRates_concat_of_isZero hzero, h.rates]
  · intro t
    rw [centsIn_itemsAt_concat, hnone, add_zero, ite_self]
    exact h.amounts t
  · rw [centsIn_concat, hnone, h.sum, add_zero]

/-- What is set under the rate of an item is all of the tax at it. -/
theorem set {sum : Money} (h : Collected currency items lines) (hrate : i.taxRate.isZero = false)
    (hcurrency : sum.currency = currency) (hsign : sum.amount.negative = false)
    (hcents : sum.amount.signedCents =
      (taxUnder currency lines i.taxRate).amount.signedCents + Money.centsOf i.tax) :
    Collected currency (items ++ [i]) (setTax lines i.taxRate sum) := by
  have each := h.oneLineEach
  constructor
  · rw [rates_setTax each, taxedRates_concat hrate, h.rates]
  · intro t
    rw [taxUnder_setTax each, centsIn_itemsAt_concat]
    by_cases ht : i.taxRate.key = t.key
    · have hsame : itemsAt items t = itemsAt items i.taxRate := by
        unfold itemsAt
        rw [ht]
      rw [if_pos ht, if_pos ht, hcents, (h.amounts i.taxRate).2.2, hsame]
      exact ⟨hcurrency, hsign, rfl⟩
    · rw [if_neg ht, if_neg ht]
      exact h.amounts t
  · have hset := centsOfLines_setTax currency i.taxRate sum each
    rw [centsIn_concat, ← h.sum]
    omega

/-- The step: an item adds its tax to the line of its rate. -/
theorem addTax (h : Collected currency items lines) (hprice : i.unitPrice.currency = currency)
    (htax : i.tax = .ok tax) (fits : centsIn LineItem.tax (items ++ [i]) < 10 ^ 28) :
    ∃ after, Invoice.addTax currency lines i = .ok after ∧
      Collected currency (items ++ [i]) after := by
  cases hrate : i.taxRate.isZero with
  | true => exact ⟨lines, by simp [Invoice.addTax, hrate], h.skip hrate⟩
  | false =>
      obtain ⟨hcurrency, hsign, hcents⟩ := h.amounts i.taxRate
      have hnonneg := lineAmount_tax.nonneg htax
      have htaxCurrency := (lineAmount_tax.currency htax).trans hprice
      -- the tax at one rate is at most all of the tax
      have hle : centsIn LineItem.tax (itemsAt items i.taxRate) ≤ centsIn LineItem.tax items :=
        lineAmount_tax.centsIn_filter_le items _
      rw [centsIn_concat, htax, Money.centsOf] at fits
      obtain ⟨sum, hsum⟩ := Money.exists_add_eq_ok (htaxCurrency.trans hcurrency.symm) hsign hnonneg
        (by rw [Amount.tenTo_precision]; omega)
      obtain ⟨-, hsumCurrency, hsumSign, hsumCents⟩ :=
        (Money.add_eq_ok_iff_of_nonneg hsign hnonneg).1 hsum
      refine ⟨setTax lines i.taxRate sum, by simp [Invoice.addTax, hrate, htax, hsum], ?_⟩
      refine h.set hrate (hsumCurrency.trans hcurrency) hsumSign ?_
      rw [hsumCents, htax, Money.centsOf]

/-- The run: the rest of the items add theirs. -/
theorem run {rest : List LineItem} (h : Collected currency items lines)
    (hrest : ∀ i ∈ rest, i.unitPrice.currency = currency ∧ ∃ tax, i.tax = .ok tax)
    (fits : centsIn LineItem.tax (items ++ rest) < 10 ^ 28) :
    ∃ after, rest.foldlM (Invoice.addTax currency) lines = .ok after ∧
      Collected currency (items ++ rest) after := by
  induction rest generalizing items lines with
  | nil => exact ⟨lines, rfl, by rwa [List.append_nil]⟩
  | cons i rest ih =>
      rw [List.append_cons] at fits ⊢
      obtain ⟨hprice, tax, htax⟩ := hrest i List.mem_cons_self
      have hle := lineAmount_tax.centsIn_nonneg rest
      obtain ⟨next, hnext, hcollected⟩ := h.addTax hprice htax (by
        rw [centsIn_append] at fits
        omega)
      rw [List.foldlM_cons, hnext]
      exact ih hcollected (fun j hj => hrest j (List.mem_cons_of_mem i hj)) fits

end Collected

/-- The tax breakdown takes the total tax apart. There is one line for each of the rates other than
zero, in the order in which they first appear, rates being told apart by value and kind. A line
holds the tax of the items at its rate, and all lines together hold the total tax. -/
theorem tax_breakdown_partitions (h : inv.totalTax = .ok tax) :
    ∃ lines, inv.taxBreakdown = .ok lines ∧ OneLineEach lines ∧
      lines.map TaxLine.rate = taxedRates inv.items ∧
      (∀ line ∈ lines, line.amount.currency = inv.currency ∧
        line.amount.amount.signedCents = centsIn LineItem.tax (itemsAt inv.items line.rate)) ∧
      centsOfLines lines = tax.amount.signedCents := by
  obtain ⟨hitems, hfits⟩ := lineAmount_tax.exists_sumOf_iff.1 ⟨tax, h⟩
  obtain ⟨lines, hlines, hcollected⟩ := collected_nil.run hitems hfits
  have each := hcollected.oneLineEach
  refine ⟨lines, hlines, each, hcollected.rates, fun line hline => ?_, ?_⟩
  · obtain ⟨hcurrency, -, hcents⟩ := hcollected.amounts line.rate
    rw [taxUnder_of_mem each hline] at hcurrency hcents
    exact ⟨hcurrency, hcents⟩
  · rw [hcollected.sum, (lineAmount_tax.sumOf_eq_ok_iff.1 h).2.2.2]
    rfl

/-- Ten per cent of a kind of tax. -/
def sampleRate (kind : TaxKind) : TaxRate := ⟨⟨false, 10, 0⟩, kind, by decide +kernel⟩

/-- The sample invoice with four items of 10.00 USD. One is not taxed, and the rates of two are
written differently. -/
def sampleTaxed : Invoice :=
  { sample with
    items := [{ LineItem.sample with taxRate := sampleRate .vat }, LineItem.sample,
      { LineItem.sample with taxRate := ⟨⟨false, 1000, -2⟩, .vat, by decide +kernel⟩ },
      { LineItem.sample with taxRate := sampleRate .gst }] }

theorem tax_breakdown_partitions_sample :
    sampleTaxed.totalTax = .ok ⟨⟨false, 300, by decide⟩, .usd⟩ ∧
      ∃ lines, sampleTaxed.taxBreakdown = .ok lines ∧
        lines = [⟨sampleRate .vat, ⟨⟨false, 200, by decide⟩, .usd⟩⟩,
          ⟨sampleRate .gst, ⟨⟨false, 100, by decide⟩, .usd⟩⟩] ∧
        OneLineEach lines ∧ lines.map TaxLine.rate = taxedRates sampleTaxed.items ∧
        centsOfLines lines = 300 := by
  have htax : sampleTaxed.totalTax = .ok ⟨⟨false, 300, by decide⟩, .usd⟩ := by decide +kernel
  obtain ⟨lines, hlines, each, hrates, -, hsum⟩ := tax_breakdown_partitions htax
  have hcomputed : sampleTaxed.taxBreakdown =
      .ok [⟨sampleRate .vat, ⟨⟨false, 200, by decide⟩, .usd⟩⟩,
        ⟨sampleRate .gst, ⟨⟨false, 100, by decide⟩, .usd⟩⟩] := by decide +kernel
  exact ⟨htax, lines, hlines, Except.ok.inj (hlines.symm.trans hcomputed), each, hrates, hsum⟩

end Invoice

end Billing
