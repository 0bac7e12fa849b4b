import Billing.Proofs.Coded

set_option autoImplicit false

/-! # Totals that fail without a code

Totals are added up item by item. Adding is always coded, so a total fails without a code exactly
when an item beyond the limit is reached (`Invoice.SumWithinLimit`): all items before it have been
added up, and its own subtotal overflows. `coded_iff_below_limit` puts together what fails with a
code, and when.
-/

namespace Billing

namespace Invoice

variable {inv : Invoice} {amount : LineItem → Except Failure Money}

/-- No item beyond the limit is reached when an amount is added up over the items. -/
def SumWithinLimit (inv : Invoice) (amount : LineItem → Except Failure Money) : Prop :=
  ∀ before i after, inv.items = before ++ i :: after →
    ∀ sum, { inv with items := before }.sumOf amount = .ok sum → i.WithinLimit

/-- No taxed item beyond the limit is reached when the taxes are sorted by their rates. -/
def BreakdownWithinLimit (inv : Invoice) : Prop :=
  ∀ before i after, inv.items = before ++ i :: after →
    ∀ lines, { inv with items := before }.taxBreakdown = .ok lines → i.taxRate.isZero = false →
      i.WithinLimit

theorem coded_sumOf_iff (hamount : ∀ i, Coded (amount i) ↔ i.WithinLimit) :
    Coded (inv.sumOf amount) ↔ inv.SumWithinLimit amount := by
  rw [sumOf, coded_foldlM_iff]
  have hstep : ∀ (sum : Money) i,
      Coded (amount i >>= fun m => sum.add m) ↔ i.WithinLimit := by
    intro sum i
    rw [coded_bind_iff, hamount, and_iff_left]
    exact fun m _ => sum.coded_add m
  simp only [hstep]
  exact Iff.rfl

theorem coded_subtotal_iff : Coded inv.subtotal ↔ inv.SumWithinLimit LineItem.subtotal :=
  coded_sumOf_iff fun _ => LineItem.coded_subtotal_iff

theorem coded_totalTax_iff : Coded inv.totalTax ↔ inv.SumWithinLimit LineItem.tax :=
  coded_sumOf_iff fun _ => LineItem.coded_tax_iff

/-- When the subtotals have been added up, the taxes can only fail with a code. -/
theorem coded_total_iff : Coded inv.total ↔ inv.SumWithinLimit LineItem.subtotal := by
  rw [total, coded_bind_iff, coded_subtotal_iff, and_iff_left_iff_imp]
  intro _ subtotal hsubtotal
  refine coded_bind_iff.2 ⟨coded_totalTax_iff.2 ?_, fun tax _ => Money.coded_add subtotal tax⟩
  intro before i after hsplit _ _
  -- every item has a subtotal, so none of them is beyond the limit
  have hi : i ∈ inv.items := by simp [hsplit]
  obtain ⟨-, m, hm⟩ := (lineAmount_subtotal.sumOf_eq_ok_iff.1 hsubtotal).1 i hi
  rw [← LineItem.coded_subtotal_iff, hm]
  exact coded_ok m

theorem coded_balanceDue_iff : Coded inv.balanceDue ↔ inv.SumWithinLimit LineItem.subtotal := by
  rw [balanceDue, coded_bind_iff, coded_total_iff, and_iff_left]
  exact fun total _ => total.coded_subtract inv.paid

theorem coded_taxBreakdown_iff : Coded inv.taxBreakdown ↔ inv.BreakdownWithinLimit := by
  rw [taxBreakdown, coded_foldlM_iff]
  have hstep : ∀ (lines : List TaxLine) i,
      Coded (addTax inv.currency lines i) ↔ (i.taxRate.isZero = false → i.WithinLimit) := by
    intro lines i
    unfold addTax
    cases i.taxRate.isZero with
    | true => simp
    | false =>
        simp only [Bool.false_eq_true, if_false, forall_const]
        rw [coded_bind_iff, LineItem.coded_tax_iff, and_iff_left]
        exact fun tax _ => coded_bind_iff.2 ⟨Money.coded_add _ _, fun sum _ => coded_ok _⟩
  simp only [hstep]
  exact Iff.rfl

end Invoice

/-- Where everything gives a value or fails with a code. Tax rates and items are always made so, out
of whatever is given. Money is, when the amount that is given is below the limit of rounding; its
products and quotients are, when their exact size is; the amounts of an item are, when its exact
subtotal is; and the totals of an invoice are, when that holds of every item that is reached. In
each case, and for every value, it is so exactly then. -/
theorem coded_iff_below_limit (rate kind amount currency factor divisor : Given)
    (fields : ItemFields) (new : Identifier) (m : Money) (i : LineItem) (inv : Invoice) :
    Coded (TaxRate.of rate kind) ∧
      Coded (LineItem.of fields new) ∧
      (Coded (Money.of amount currency) ↔
        ∀ d, amount.toDecimal "amount" = .ok d → d.size < Decimal.overflowLimit) ∧
      (Coded (m.multiply factor) ↔
        ∀ d, factor.toDecimal "factor" = .ok d →
          m.amount.toDecimal.size * d.size < Decimal.overflowLimit) ∧
      (Coded (m.divide divisor) ↔
        ∀ d, divisor.toDecimal "divisor" = .ok d → d.isZero = false →
          m.amount.toDecimal.size / d.size < Decimal.overflowLimit) ∧
      (Coded i.subtotal ↔ i.WithinLimit) ∧
      (Coded i.tax ↔ i.WithinLimit) ∧
      (Coded i.total ↔ i.WithinLimit) ∧
      (Coded inv.subtotal ↔ inv.SumWithinLimit LineItem.subtotal) ∧
      (Coded inv.totalTax ↔ inv.SumWithinLimit LineItem.tax) ∧
      (Coded inv.total ↔ inv.SumWithinLimit LineItem.subtotal) ∧
      (Coded inv.balanceDue ↔ inv.SumWithinLimit LineItem.subtotal) ∧
      (Coded inv.taxBreakdown ↔ inv.BreakdownWithinLimit) :=
  ⟨TaxRate.coded_of rate kind, LineItem.coded_of fields new, Money.coded_of_iff,
    Money.coded_multiply_iff, Money.coded_divide_iff, LineItem.coded_subtotal_iff,
    LineItem.coded_tax_iff, LineItem.coded_total_iff, Invoice.coded_subtotal_iff,
    Invoice.coded_totalTax_iff, Invoice.coded_total_iff, Invoice.coded_balanceDue_iff,
    Invoice.coded_taxBreakdown_iff⟩

/-- Beyond the limit there are amounts, and no money is made of them. -/
theorem amount_beyond_limit_has_no_code :
    Money.of (.text "1E1000000") (.text "USD") = .error (.arithmetic .overflow) ∧
      ¬ Coded (Money.of (.text "1E1000000") (.text "USD")) := by
  have hoverflow : Money.of (.text "1E1000000") (.text "USD") = .error (.arithmetic .overflow) := by
    decide +kernel
  refine ⟨hoverflow, ?_⟩
  rw [hoverflow]
  exact not_coded_arithmetic .overflow

end Billing
