import Billing.Invoice.Totals
import Billing.Procedure

set_option autoImplicit false

/-! # The life of an invoice

Items are added, removed and updated while an invoice is a draft; then it is finalized, sent and
paid, and it may be voided on the way. Each of these is an `Edit`: it reads and writes the invoice,
and when it fails, whatever it wrote before stays written. `Command` lists the edits that callers
can ask for, and `Invoice.apply` carries one out.
-/

namespace Billing

/-- A change to an invoice that can fail. A failure does not undo what was written before it. -/
abbrev Edit (α : Type) : Type := Procedure Failure Invoice α

namespace Edit

/-- The invoice after an edit, if the edit did not fail. -/
def result {α : Type} (edit : Edit α) (inv : Invoice) : Except Failure Invoice :=
  match edit.on inv with
  | (.ok _, after) => .ok after
  | (.error e, _) => .error e

/-- Refuses an edit because of a rule. -/
def refuse {α : Type} (rule : Rule) : Edit α := throw (.broken rule)

/-- Refuses an edit that moves the invoice to a state which may not follow its own. -/
def requireNext (target : Status) (rule : Rule) : Edit Unit := do
  let inv ← get
  unless inv.status.next.contains target do refuse rule

/-- Refuses a change of the items of an invoice that is no draft. -/
def requireDraft (change : ItemChange) : Edit Unit := do
  let inv ← get
  unless inv.status = .draft do refuse (.onlyDraft change)

end Edit

/-- What is to change about an item. Fields that are missing stay as they are. -/
structure ItemPatch where
  description : Given := .missing
  quantity : Given := .missing
  unitPrice : Given := .missing
  taxRate : Option TaxRate := none

namespace Invoice

open Edit

/-! ## Items -/

/-- Adds an item at the end. -/
def addItem (item : LineItem) : Edit Unit := do
  requireDraft .add
  let inv ← get
  requireItemCurrency inv.currency item
  if inv.items.any fun i => i.id == item.id then refuse (.itemExists item.id.text)
  set { inv with items := inv.items ++ [item] }

/-- The first item with an identifier. -/
def findItem (id : String) : Edit LineItem := do
  let inv ← get
  match inv.items.find? fun i => i.id.text == id with
  | some item => return item
  | none => refuse (.itemMissing id)

/-- Removes the first item with an identifier. -/
def removeItem (id : String) : Edit Unit := do
  requireDraft .remove
  let _ ← findItem id
  modify fun inv => { inv with items := inv.items.eraseP fun i => i.id.text == id }

/-- Makes a change if there is a value for it. -/
def unlessMissing (g : Given) (change : Given → Except Failure LineItem) (item : LineItem) :
    Except Failure LineItem :=
  match g with
  | .missing => .ok item
  | g => change g

/-- The item with its fields changed one after the other, each time checked as a whole. -/
def patched (currency : Currency) (patch : ItemPatch) (item : LineItem) :
    Except Failure LineItem := do
  let item ← unlessMissing patch.description item.withDescription item
  let item ← unlessMissing patch.quantity item.withQuantity item
  let item ← unlessMissing patch.unitPrice (fun g => do
    let priced ← item.withUnitPrice g
    requireItemCurrency currency priced
    return priced) item
  match patch.taxRate with
  | some t => item.withTaxRate (some t)
  | none => return item

/-- Puts an item in the place of the first one with its identifier. -/
def replaceItem (item : LineItem) : List LineItem → List LineItem
  | [] => []
  | i :: is => if i.id == item.id then item :: is else i :: replaceItem item is

/-- Updates the first item with an identifier in its place. -/
def updateItem (id : String) (patch : ItemPatch) : Edit LineItem := do
  requireDraft .update
  let item ← findItem id
  let inv ← get
  let updated ← patched inv.currency patch item
  set { inv with items := replaceItem updated inv.items }
  return updated

/-! ## States -/

/-- Closes the list of items. -/
def finalize (now : Moment) : Edit Unit := do
  let inv ← get
  unless inv.status = .draft do refuse .finalizeOnlyDraft
  if inv.items.isEmpty then refuse .finalizeWithItems
  requireNext .finalized .finalizeOnlyDraft
  modify fun inv => { inv with status := .finalized }
  modify fun inv => { inv with finalizedAt := some now }

/-- Marks a finalized invoice as sent. -/
def send (now : Moment) : Edit Unit := do
  let inv ← get
  unless inv.status = .finalized do refuse .sendOnlyFinalized
  requireNext .sent .sendOnlyFinalized
  modify fun inv => { inv with status := .sent }
  modify fun inv => { inv with sentAt := some now }

/-- The state of an invoice of which an amount has been paid. -/
def settledStatus (paid total : Money) : Except Failure Status := do
  if ← paid.equals total then return .paid
  if ← paid.isLessThan total then return .partiallyPaid
  return .overpaid

/-- Adds a payment to what has been paid. The invoice is then paid, partially paid or overpaid. -/
def recordPayment (payment : Given) (now : Moment) : Edit Unit := do
  let inv ← get
  unless inv.status.isPayable do refuse .payOnlyAwaited
  let .money amount := payment | throw (.invalid "amount" payment.shown)
  unless amount.currency = inv.currency do
    refuse (.paymentCurrency amount.currency inv.currency)
  unless amount.isPositive do refuse .payPositive
  let paid ← inv.paid.add amount
  let total ← inv.total
  let target ← settledStatus paid total
  requireNext target (.noTransition inv.status target)
  modify fun inv => { inv with paidAmount := some paid }
  modify fun inv => { inv with status := target }
  if target = .paid then modify fun inv => { inv with paidAt := some now }

/-- Records a single payment, which must be of the total. -/
def markAsPaid (amount : Money) (now : Moment) : Edit Unit := do
  let inv ← get
  let total ← inv.total
  unless ← amount.equals total do refuse (.payTotal amount total)
  recordPayment (.money amount) now

/-- Cancels the invoice for a reason. -/
def void (reason : Given) (now : Moment) : Edit Unit := do
  let inv ← get
  if inv.status = .void then refuse .voidOnce
  if inv.status = .paid then refuse .voidUnpaid
  requireNext .void (.voidAllowed inv.status)
  let reason ← reason.toLabel "reason"
  modify fun inv => { inv with status := .void }
  modify fun inv => { inv with voidReason := some reason.text }
  modify fun inv => { inv with voidedAt := some now }

end Invoice

/-! ## Commands -/

/-- The edits that callers can ask for. Moments that are not given are the present one.

Items, identifiers, moments, the tax rate of a patch and the amount of `markAsPaid` are of their
declared types. Payments, reasons and the other fields of a patch are checked, so that these can be
any `Given` value. -/
inductive Command where
  | addItem (item : LineItem)
  | removeItem (id : String)
  | updateItem (id : String) (patch : ItemPatch)
  | finalize (now : Option Moment)
  | send (now : Option Moment)
  | recordPayment (payment : Given) (now : Option Moment)
  | markAsPaid (amount : Money) (now : Option Moment)
  | void (reason : Given) (now : Option Moment)

namespace Invoice

/-- Carries out a command; updating an item returns it. -/
def apply (clock : Moment) : Command → Edit (Option LineItem)
  | .addItem item => do addItem item; return none
  | .removeItem id => do removeItem id; return none
  | .updateItem id patch => do return some (← updateItem id patch)
  | .finalize now => do finalize (now.getD clock); return none
  | .send now => do send (now.getD clock); return none
  | .recordPayment payment now => do recordPayment payment (now.getD clock); return none
  | .markAsPaid amount now => do markAsPaid amount (now.getD clock); return none
  | .void reason now => do void reason (now.getD clock); return none

end Invoice

end Billing
