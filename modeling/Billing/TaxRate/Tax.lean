import Billing.Money.Arithmetic
import Billing.TaxRate.Basic

set_option autoImplicit false

/-! # Making and applying tax rates

A tax rate is made from a given percentage and a given kind of tax (`TaxRate.of`). The tax on a
base amount is rounded to cents (`TaxRate.taxOn`).
-/

namespace Billing.TaxRate

/-- A tax rate from a given percentage and the given name of a kind of tax. -/
def of (rate kind : Given) : Except Failure TaxRate := do
  let d ← rate.toDecimal "rate"
  if h : Billing.isPercentage d = true ∧ d.readable = true then
    let k ← kind.choose "classification" TaxKind.ofName?
    return ⟨d, k, h⟩
  else
    throw (.invalid "rate" ("Tax rate must be between 0 and 100, got: " ++ rate.shown))

/-- The tax on a base amount. -/
def taxOn (t : TaxRate) (base : Decimal) : Except Failure Amount := do
  let product ← ofSignal (base.mul t.rate)
  let share ← ofSignal (product.div Decimal.hundred)
  Amount.round share

/-- The tax on a given base amount. -/
def calculateTax (t : TaxRate) (base : Given) : Except Failure Amount := do
  t.taxOn (← base.toDecimal "amount")

end Billing.TaxRate
