import Billing.Identifier
import Billing.TaxRate.Tax

set_option autoImplicit false

/-! # Line items

A `LineItem` is one billable line of an invoice: a quantity at a unit price, with a tax rate. Its
subtotal, tax and total are computed from these each time. Items do not change; an update makes a
new item, which is checked like any other (`LineItem.of`).
-/

namespace Billing

/-- One billable line. -/
structure LineItem where
  id : Identifier
  description : Label
  quantity : Decimal
  unitPrice : Money
  taxRate : TaxRate
  quantity_pos : quantity.isPositive = true
  quantity_readable : quantity.readable = true
  unitPrice_pos : unitPrice.isPositive = true
  deriving DecidableEq, Repr

/-- What an item is made from. Without a tax rate it is not taxed, and without an identifier it
gets a new one. -/
structure ItemFields where
  description : Given
  quantity : Given
  unitPrice : Given
  taxRate : Option TaxRate := none
  id : Option String := none

namespace LineItem

/-- Takes a given quantity, which must be above zero and in the range of decimals that can be
read. -/
def quantityOf (g : Given) :
    Except Failure { d : Decimal // d.isPositive = true ∧ d.readable = true } := do
  let d ← g.toDecimal "quantity"
  if h : d.isPositive = true ∧ d.readable = true then return ⟨d, h⟩
  else throw (.invalid "quantity" g.shown)

/-- Takes a given unit price, which must be money above zero. -/
def unitPriceOf : Given → Except Failure { m : Money // m.isPositive = true }
  | .missing => .error (.required "unitPrice")
  | .money m =>
      if h : m.isPositive = true then .ok ⟨m, h⟩
      else .error (.invalid "unitPrice" "Unit price must be positive")
  | _ => .error (.invalid "unitPrice" "Unit price must be positive")

/-- An item from the given fields. -/
def of (f : ItemFields) (new : Identifier) : Except Failure LineItem := do
  let description ← f.description.toLabel "description"
  let quantity ← quantityOf f.quantity
  let price ← unitPriceOf f.unitPrice
  return {
    id := .ofGiven f.id new
    description
    quantity := quantity.1
    unitPrice := price.1
    taxRate := f.taxRate.getD .noTax
    quantity_pos := quantity.2.1
    quantity_readable := quantity.2.2
    unitPrice_pos := price.2 }

/-! ## Amounts -/

def subtotal (i : LineItem) : Except Failure Money := i.unitPrice.scale i.quantity

def tax (i : LineItem) : Except Failure Money := do
  let subtotal ← i.subtotal
  return ⟨← i.taxRate.taxOn subtotal.amount.toDecimal, subtotal.currency⟩

def total (i : LineItem) : Except Failure Money := do
  let subtotal ← i.subtotal
  let tax ← i.tax
  subtotal.add tax

/-! ## Updates -/

/-- The fields of an item, as they would be given to make it again. -/
def fields (i : LineItem) : ItemFields where
  description := .text i.description.text
  quantity := .decimal (.finite i.quantity)
  unitPrice := .money i.unitPrice
  taxRate := some i.taxRate
  id := some i.id.text

/-- The item made again from changed fields. It keeps its identifier. -/
def remake (i : LineItem) (f : ItemFields) : Except Failure LineItem :=
  of f i.id

def withDescription (i : LineItem) (g : Given) : Except Failure LineItem :=
  i.remake { i.fields with description := g }

def withQuantity (i : LineItem) (g : Given) : Except Failure LineItem :=
  i.remake { i.fields with quantity := g }

def withUnitPrice (i : LineItem) (g : Given) : Except Failure LineItem :=
  i.remake { i.fields with unitPrice := g }

def withTaxRate (i : LineItem) (t : Option TaxRate) : Except Failure LineItem :=
  i.remake { i.fields with taxRate := t }

/-- Items are the same when all their fields are, numbers compared by value. -/
def same (a b : LineItem) : Bool :=
  a.description == b.description && a.quantity.same b.quantity && a.unitPrice.same b.unitPrice &&
    a.taxRate.same b.taxRate && a.id == b.id

end LineItem

end Billing
