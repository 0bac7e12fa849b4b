import Billing.Invoice.Basic

set_option autoImplicit false

/-! # Totals of an invoice

Subtotal, tax and total are computed from the items each time they are asked for, and so are the
tax under each rate (`Invoice.taxBreakdown`) and the balance that is still due.
-/

namespace Billing

/-- The tax collected under one rate. -/
structure TaxLine where
  rate : TaxRate
  amount : Money
  deriving DecidableEq, Repr

namespace Invoice

/-- The sum over the items of one of their amounts. -/
def sumOf (inv : Invoice) (amount : LineItem → Except Failure Money) : Except Failure Money :=
  inv.items.foldlM (fun sum item => do sum.add (← amount item)) (Money.zero inv.currency)

def subtotal (inv : Invoice) : Except Failure Money := inv.sumOf LineItem.subtotal

def totalTax (inv : Invoice) : Except Failure Money := inv.sumOf LineItem.tax

def total (inv : Invoice) : Except Failure Money := do
  let subtotal ← inv.subtotal
  let tax ← inv.totalTax
  subtotal.add tax

/-- What has been paid so far. -/
def paid (inv : Invoice) : Money := inv.paidAmount.getD (Money.zero inv.currency)

/-- The total less what has been paid; below zero after an overpayment. -/
def balanceDue (inv : Invoice) : Except Failure Money := do
  let total ← inv.total
  total.subtract inv.paid

/-- The amount that the lines hold under a rate; nothing if there is no line for it. -/
def taxUnder (currency : Currency) (lines : List TaxLine) (rate : TaxRate) : Money :=
  match lines.find? fun line => line.rate.same rate with
  | some line => line.amount
  | none => Money.zero currency

/-- Sets the amount under a rate: in its line if there is one, or else in a new line at the end. -/
def setTax (lines : List TaxLine) (rate : TaxRate) (amount : Money) : List TaxLine :=
  if lines.any fun line => line.rate.same rate then
    lines.map fun line => if line.rate.same rate then { line with amount } else line
  else lines ++ [⟨rate, amount⟩]

/-- Adds the tax of an item to the line of its rate; items without tax have no line. -/
def addTax (currency : Currency) (lines : List TaxLine) (item : LineItem) :
    Except Failure (List TaxLine) :=
  if item.taxRate.isZero then .ok lines
  else do
    let tax ← item.tax
    let sum ← (taxUnder currency lines item.taxRate).add tax
    return setTax lines item.taxRate sum

/-- The tax under each rate, in the order in which the rates first appear. -/
def taxBreakdown (inv : Invoice) : Except Failure (List TaxLine) :=
  inv.items.foldlM (addTax inv.currency) []

/-- An invoice is overdue when a payment is awaited and its due date has passed. -/
def isOverdue (inv : Invoice) (today : Date) : Bool := inv.status.isPayable && inv.dueDate.lt today

end Invoice

end Billing
