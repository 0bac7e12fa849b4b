import Billing.Invoice.Number
import Billing.Item

set_option autoImplicit false

/-! # Invoices

An `Invoice` has a number, a client, an issuer, a currency and a due date; it holds line items, and
it stands in one of the states of its life. It is either made anew as a draft (`Invoice.create`) or
brought back in the state it had (`Invoice.restore`), which checks the fields but not the rules for
new invoices.
-/

namespace Billing

/-- An invoice with its items and the record of its life. -/
structure Invoice where
  id : Identifier
  number : InvoiceNumber
  clientId : Label
  issuedBy : Label
  currency : Currency
  dueDate : Date
  type : InvoiceType
  projectId : Option String
  frequency : Option Frequency
  notes : Option String
  items : List LineItem
  status : Status
  finalizedAt : Option Moment
  sentAt : Option Moment
  paidAt : Option Moment
  voidedAt : Option Moment
  paidAmount : Option Money
  voidReason : Option String
  version : Int
  deriving DecidableEq, Repr

/-- What every invoice is made from. -/
structure InvoiceFields where
  number : Given
  clientId : Given
  issuedBy : Given
  currency : Given
  dueDate : Given
  type : Given := .text "STANDARD"
  projectId : Option String := none
  frequency : Given := .missing
  notes : Option String := none

/-- What an invoice that is brought back has besides: a new invoice has none of it. -/
structure InvoiceRecord where
  id : Option String := none
  items : List LineItem := []
  status : Given := .text "DRAFT"
  finalizedAt : Option Moment := none
  sentAt : Option Moment := none
  paidAt : Option Moment := none
  voidedAt : Option Moment := none
  paidAmount : Option Money := none
  voidReason : Option String := none
  version : Int := 0

namespace Invoice

/-- Notes without the blanks around them; no notes and empty notes are the same. -/
def notesOf : Option String → Option String
  | some s => if s = "" then none else some (Text.strip s)
  | none => none

/-- Refuses an item in another currency than the invoice. -/
def requireItemCurrency (currency : Currency) (item : LineItem) : Except Failure Unit :=
  if item.unitPrice.currency = currency then .ok ()
  else .error (.broken (.itemCurrency item.unitPrice.currency currency))

/-- Refuses an amount paid in another currency than the invoice. -/
def requirePaidCurrency (currency : Currency) : Option Money → Except Failure Unit
  | some m =>
      if m.currency = currency then .ok () else .error (.broken (.paidCurrency m.currency currency))
  | none => .ok ()

/-- An invoice with the given fields in the recorded state. -/
def restore (f : InvoiceFields) (r : InvoiceRecord) (fresh : Fresh) : Except Failure Invoice := do
  f.number.require "number"
  let number ← InvoiceNumber.of f.number
  let clientId ← f.clientId.toLabel "clientId"
  let issuedBy ← f.issuedBy.toLabel "issuedBy"
  let currency ← Currency.ofGiven f.currency
  let some dueDate := f.dueDate.date? | throw (.required "dueDate")
  let some type ← f.type.choose? "type" InvoiceType.ofName? | throw (.required "type")
  let frequency ← f.frequency.choose? "frequency" Frequency.ofName?
  r.items.forM (requireItemCurrency currency)
  requirePaidCurrency currency r.paidAmount
  let status ← r.status.choose? "status" Status.ofName?
  return {
    id := .ofGiven r.id fresh.invoice
    number, clientId, issuedBy, currency, dueDate, type, frequency
    projectId := f.projectId
    notes := notesOf f.notes
    items := r.items
    status := status.getD .draft
    finalizedAt := r.finalizedAt
    sentAt := r.sentAt
    paidAt := r.paidAt
    voidedAt := r.voidedAt
    paidAmount := r.paidAmount
    voidReason := r.voidReason
    version := r.version }

/-- New invoices fall due after today. -/
def requireFuture (due today : Date) : Except Failure Unit :=
  if due.le today then .error (.broken .dueInFuture) else .ok ()

/-- A new draft. It falls due after today, and has a frequency if it is recurring. -/
def create (f : InvoiceFields) (today : Date) (fresh : Fresh) : Except Failure Invoice := do
  let some due := f.dueDate.date? | throw (.required "dueDate")
  requireFuture due today
  let type ← f.type.choose? "type" InvoiceType.ofName?
  if let (some .recurring, .missing) := (type, f.frequency) then
    throw (.broken .recurringFrequency)
  restore f {} fresh

end Invoice

end Billing
