import Billing.Proofs.Invoice.Totals
import Billing.Proofs.Money.Cents

set_option autoImplicit false

/-! # Totals add up

The subtotals and the taxes of the items are added up on their own and then put together, and each
of these additions can fail. Still there is a total exactly if each item has one and the exact sum
of them has few enough digits, and it is that sum (`Invoice.total_eq_ok_iff`): nothing that is added
is below zero, so the sums on the way are at most the one at the end. For the same reason the order
of the items does not matter (`Invoice.totals_add_up`).
-/

namespace Billing

/-- The sum of two amounts that are computed first, in one currency and not below zero. -/
theorem Money.bind_add_eq_ok_iff {x y : Except Failure Money} {k : Currency} {c : Money}
    (hx : ∀ m, x = .ok m → m.currency = k ∧ m.amount.negative = false)
    (hy : ∀ m, y = .ok m → m.currency = k ∧ 0 ≤ m.amount.signedCents) :
    (do let a ← x
        let b ← y
        a.add b) = .ok c ↔
      (∃ a, x = .ok a) ∧ (∃ b, y = .ok b) ∧ c.currency = k ∧ c.amount.negative = false ∧
        c.amount.signedCents = centsOf x + centsOf y := by
  cases x with
  | error e => simp
  | ok a =>
      cases y with
      | error e => simp
      | ok b =>
          obtain ⟨ha, hsign⟩ := hx a rfl
          obtain ⟨hb, hnonneg⟩ := hy b rfl
          rw [Except.ok_bind, Except.ok_bind, add_eq_ok_iff_of_nonneg hsign hnonneg, ha, hb]
          simp [centsOf]

namespace LineItem

variable {i : LineItem} {m : Money}

theorem total_eq_ok_iff :
    i.total = .ok m ↔
      (∃ subtotal, i.subtotal = .ok subtotal) ∧ (∃ tax, i.tax = .ok tax) ∧
        m.currency = i.unitPrice.currency ∧ m.amount.negative = false ∧
        m.amount.signedCents = Money.centsOf i.subtotal + Money.centsOf i.tax :=
  Money.bind_add_eq_ok_iff (fun _ => subtotal_eq_ok) fun _ => tax_eq_ok

end LineItem

namespace Invoice

variable {items : List LineItem} {amount : LineItem → Except Failure Money} {m total : Money}
  {inv : Invoice}

theorem lineAmount_total : LineAmount LineItem.total where
  currency h := (LineItem.total_eq_ok_iff.1 h).2.2.1
  nonneg h := Amount.signedCents_nonneg (.inl (LineItem.total_eq_ok_iff.1 h).2.2.2.1)

theorem centsIn_append (before after : List LineItem) :
    centsIn amount (before ++ after) = centsIn amount before + centsIn amount after := by
  unfold centsIn
  rw [List.map_append, List.sum_append]

theorem centsIn_concat (items : List LineItem) (i : LineItem) :
    centsIn amount (items ++ [i]) = centsIn amount items + Money.centsOf (amount i) := by
  rw [centsIn_append, centsIn_cons, centsIn_nil, add_zero]

theorem centsIn_perm {others : List LineItem} (h : items.Perm others) :
    centsIn amount items = centsIn amount others :=
  (h.map _).sum_eq

theorem centsIn_total (h : ∀ i ∈ items, ∃ m, i.total = .ok m) :
    centsIn LineItem.total items =
      centsIn LineItem.subtotal items + centsIn LineItem.tax items := by
  unfold centsIn
  rw [← List.sum_map_add]
  refine congrArg List.sum (List.map_congr_left fun i hi => ?_)
  obtain ⟨m, hm⟩ := h i hi
  rw [hm]
  exact (LineItem.total_eq_ok_iff.1 hm).2.2.2.2

/-! ## Sums on the way -/

/-- At each of the items, the sum so far can be computed and is the exact one. -/
def SumsExactly (inv : Invoice) (amount : LineItem → Except Failure Money) : Prop :=
  ∀ before after, inv.items = before ++ after →
    ∃ m, sumOf { inv with items := before } amount = .ok m ∧
      m.amount.signedCents = centsIn amount before

namespace LineAmount

/-- There is a sum if the items are in the currency, each has its amount, and the exact sum has few
enough digits. -/
theorem exists_sumOf_iff (h : LineAmount amount) :
    (∃ m, inv.sumOf amount = .ok m) ↔
      (∀ i ∈ inv.items, i.unitPrice.currency = inv.currency ∧ ∃ m, amount i = .ok m) ∧
        centsIn amount inv.items < 10 ^ 28 := by
  have hprecision := Amount.tenTo_precision
  constructor
  · rintro ⟨m, hm⟩
    obtain ⟨hitems, -, -, hcents⟩ := h.sumOf_eq_ok_iff.1 hm
    have hupper := m.amount.natAbs_signedCents_lt
    exact ⟨hitems, by omega⟩
  · rintro ⟨hitems, hfits⟩
    obtain ⟨n, hn⟩ := Int.eq_ofNat_of_zero_le (h.centsIn_nonneg inv.items)
    have hsum : inv.sumOf amount = .ok ⟨⟨false, n, by omega⟩, inv.currency⟩ :=
      h.sumOf_eq_ok_iff.2 ⟨hitems, rfl, rfl, hn.symm⟩
    exact ⟨_, hsum⟩

theorem sumsExactly (h : LineAmount amount) (hm : inv.sumOf amount = .ok m) :
    inv.SumsExactly amount := by
  intro before after hsplit
  obtain ⟨hitems, hfits⟩ := h.exists_sumOf_iff.1 ⟨m, hm⟩
  rw [hsplit] at hitems hfits
  -- what is still to come is not below zero, so the sum so far is at most the whole
  have hle : centsIn amount before ≤ centsIn amount (before ++ after) := by
    have hafter := h.centsIn_nonneg after
    rw [centsIn_append]
    omega
  have hbefore : ∃ sum, sumOf { inv with items := before } amount = .ok sum :=
    h.exists_sumOf_iff.2
      ⟨fun i hi => hitems i (List.mem_append_left after hi), hle.trans_lt hfits⟩
  obtain ⟨sum, hsum⟩ := hbefore
  exact ⟨sum, hsum, (h.sumOf_eq_ok_iff.1 hsum).2.2.2⟩

theorem sumOf_perm (h : LineAmount amount) (perm : items.Perm inv.items) :
    sumOf { inv with items } amount = .ok m ↔ inv.sumOf amount = .ok m := by
  rw [h.sumOf_eq_ok_iff, h.sumOf_eq_ok_iff]
  show (∀ i ∈ items, _) ∧ _ ∧ _ ∧ _ = centsIn amount items ↔ _
  simp only [perm.mem_iff, centsIn_perm perm]

end LineAmount

/-! ## The total -/

/-- The total in terms of the two sums that it is computed from. -/
theorem total_eq_ok_iff_sums :
    inv.total = .ok total ↔
      (∃ subtotal, inv.subtotal = .ok subtotal) ∧ (∃ tax, inv.totalTax = .ok tax) ∧
        total.currency = inv.currency ∧ total.amount.negative = false ∧
        total.amount.signedCents =
          centsIn LineItem.subtotal inv.items + centsIn LineItem.tax inv.items := by
  have hsub : ∀ m, inv.subtotal = .ok m →
      m.currency = inv.currency ∧ m.amount.negative = false := by
    intro m h
    obtain ⟨-, hcurrency, hsign, -⟩ := lineAmount_subtotal.sumOf_eq_ok_iff.1 h
    exact ⟨hcurrency, hsign⟩
  have htax : ∀ m, inv.totalTax = .ok m →
      m.currency = inv.currency ∧ 0 ≤ m.amount.signedCents := by
    intro m h
    obtain ⟨-, hcurrency, hsign, -⟩ := lineAmount_tax.sumOf_eq_ok_iff.1 h
    exact ⟨hcurrency, Amount.signedCents_nonneg (.inl hsign)⟩
  rw [Invoice.total, Money.bind_add_eq_ok_iff hsub htax]
  refine and_congr_right ?_
  rintro ⟨subtotal, hsubtotal⟩
  refine and_congr_right ?_
  rintro ⟨tax, htotalTax⟩
  rw [hsubtotal, htotalTax, ← (lineAmount_subtotal.sumOf_eq_ok_iff.1 hsubtotal).2.2.2,
    ← (lineAmount_tax.sumOf_eq_ok_iff.1 htotalTax).2.2.2]
  rfl

/-- The total is the sum of the totals of the items. -/
theorem total_eq_ok_iff : inv.total = .ok total ↔ inv.sumOf LineItem.total = .ok total := by
  rw [lineAmount_total.sumOf_eq_ok_iff]
  constructor
  · intro h
    have hitems : ∀ i ∈ inv.items, ∃ m, i.total = .ok m := fun i hi => itemTotal_of_total h hi
    obtain ⟨⟨subtotal, hsubtotal⟩, -, htotal⟩ := total_eq_ok_iff_sums.1 h
    rw [centsIn_total hitems]
    refine ⟨fun i hi => ⟨?_, hitems i hi⟩, htotal⟩
    exact ((lineAmount_subtotal.sumOf_eq_ok_iff.1 hsubtotal).1 i hi).1
  · rintro ⟨hitems, htotal⟩
    have hfits := (lineAmount_total.exists_sumOf_iff.1
      ⟨total, lineAmount_total.sumOf_eq_ok_iff.2 ⟨hitems, htotal⟩⟩).2
    rw [centsIn_total fun i hi => (hitems i hi).2] at htotal hfits
    -- the subtotals, and the taxes, come to at most the total
    have hsubNonneg := lineAmount_subtotal.centsIn_nonneg inv.items
    have htaxNonneg := lineAmount_tax.centsIn_nonneg inv.items
    refine total_eq_ok_iff_sums.2 ⟨lineAmount_subtotal.exists_sumOf_iff.2 ⟨fun i hi => ?_, ?_⟩,
      lineAmount_tax.exists_sumOf_iff.2 ⟨fun i hi => ?_, ?_⟩, htotal⟩
    · obtain ⟨hcurrency, m, hm⟩ := hitems i hi
      exact ⟨hcurrency, (LineItem.total_eq_ok_iff.1 hm).1⟩
    · omega
    · obtain ⟨hcurrency, m, hm⟩ := hitems i hi
      exact ⟨hcurrency, (LineItem.total_eq_ok_iff.1 hm).2.1⟩
    · omega

/-- An invoice has a total exactly if its items are in its currency, each of them has a total, and
the exact sum of these is below `10 ^ 26` units. It is that sum, which is the subtotal and the tax
together, and no addition on the way is rounded. The order of the items matters to none of this. -/
theorem totals_add_up (inv : Invoice) :
    ((∃ total, inv.total = .ok total) ↔
      (∀ i ∈ inv.items, i.unitPrice.currency = inv.currency ∧ ∃ m, i.total = .ok m) ∧
        centsIn LineItem.total inv.items < 10 ^ 28) ∧
    (∀ total, inv.total = .ok total →
      total.currency = inv.currency ∧
      total.amount.signedCents = centsIn LineItem.total inv.items ∧
      inv.SumsExactly LineItem.subtotal ∧ inv.SumsExactly LineItem.tax ∧
      ∃ subtotal tax, inv.subtotal = .ok subtotal ∧ inv.totalTax = .ok tax ∧
        total.amount.signedCents = subtotal.amount.signedCents + tax.amount.signedCents) ∧
    ∀ items, items.Perm inv.items → ∀ m,
      (subtotal { inv with items } = .ok m ↔ inv.subtotal = .ok m) ∧
      (totalTax { inv with items } = .ok m ↔ inv.totalTax = .ok m) ∧
      (Invoice.total { inv with items } = .ok m ↔ inv.total = .ok m) := by
  refine ⟨?_, fun total h => ?_, fun items perm m => ⟨?_, ?_, ?_⟩⟩
  · simp only [total_eq_ok_iff]
    exact lineAmount_total.exists_sumOf_iff
  · obtain ⟨-, hcurrency, -, hcents⟩ :=
      lineAmount_total.sumOf_eq_ok_iff.1 (total_eq_ok_iff.1 h)
    obtain ⟨subtotal, hsubtotal, h⟩ := Except.bind_eq_ok_iff.1 h
    obtain ⟨tax, htax, h⟩ := Except.bind_eq_ok_iff.1 h
    exact ⟨hcurrency, hcents, lineAmount_subtotal.sumsExactly hsubtotal,
      lineAmount_tax.sumsExactly htax, subtotal, tax, hsubtotal, htax,
      Money.signedCents_of_add_eq_ok h⟩
  · exact lineAmount_subtotal.sumOf_perm perm
  · exact lineAmount_tax.sumOf_perm perm
  · rw [total_eq_ok_iff, total_eq_ok_iff]
    exact lineAmount_total.sumOf_perm perm

end Invoice

end Billing
