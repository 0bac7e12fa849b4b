import Billing.Invoice.Totals

set_option autoImplicit false

/-! # Invoices as text

A `summary` is the page that people read: a head, one line for each item in columns, and the
totals. A `caption` names an invoice in one line.
-/

namespace Billing.Invoice

/-- The line of an item: description, quantity, unit price, tax rate and total in columns. -/
def itemLine (item : LineItem) : Except Failure String := do
  let total ← item.total
  return "  " ++ Text.padEnd 40 item.description.text ++ " " ++
    Text.padStart 8 item.quantity.text ++ " x " ++
    Text.padStart 14 item.unitPrice.display ++ "  " ++
    Text.padEnd 22 item.taxRate.display ++ " " ++ Text.padStart 14 total.display

def head (inv : Invoice) : List String :=
  let frequency := match inv.frequency with
    | some f => " (" ++ f.name ++ ")"
    | none => ""
  ["Invoice " ++ inv.number.value ++ " [" ++ inv.status.name ++ "]",
    "  Client:   " ++ inv.clientId.text,
    "  Type:     " ++ inv.type.name ++ frequency,
    "  Due date: " ++ inv.dueDate.text]

/-- A line for what has been paid, if anything has. -/
def paidLine (inv : Invoice) : List String :=
  match inv.paidAmount with
  | some m => ["  Paid:        " ++ m.display]
  | none => []

/-- A line for the reason of voiding, if there is one. -/
def reasonLine (inv : Invoice) : List String :=
  match inv.voidReason with
  | some s => if s = "" then [] else ["  Void reason: " ++ s]
  | none => []

/-- The page of an invoice. -/
def summary (inv : Invoice) : Except Failure String := do
  let items ← inv.items.mapM itemLine
  let subtotal ← inv.subtotal
  let lines ← inv.taxBreakdown
  let tax ← inv.totalTax
  let total ← inv.total
  let balance ← inv.balanceDue
  return String.intercalate "\n" (inv.head ++ [""] ++ items ++ [""] ++
    ["  Subtotal:    " ++ subtotal.display] ++
    lines.map (fun line => "  " ++ line.rate.display ++ ": " ++ line.amount.display) ++
    ["  Total tax:   " ++ tax.display, "  Total:       " ++ total.display] ++ inv.paidLine ++
    ["  Balance due: " ++ balance.display] ++ inv.reasonLine)

/-- The identifier, number, state and total of an invoice in one line. -/
def caption (inv : Invoice) : Except Failure String := do
  let total ← inv.total
  return "InvoiceAggregate(id=" ++ Text.quote inv.id.text ++ ", number=" ++
    Text.quote inv.number.value ++ ", status=" ++ inv.status.name ++ ", total=" ++ total.text ++ ")"

end Billing.Invoice
