import Billing.Invoice.Totals

set_option autoImplicit false

/-! # Snapshots

A `Snapshot` is an image of an invoice in which every amount, quantity and rate is a text. It is
taken of an invoice (`Snapshot.of`) together with the totals, which are for readers only, and an
invoice is brought back from it (`Snapshot.toInvoice`).
-/

namespace Billing

/-- The image of money. -/
structure MoneyImage where
  amount : String
  currency : String
  deriving DecidableEq, Repr

/-- The image of a tax rate. -/
structure TaxRateImage where
  rate : String
  kind : String
  deriving DecidableEq, Repr

/-- The image of an item, possibly with its total. -/
structure ItemImage where
  id : String
  description : String
  quantity : String
  unitPrice : MoneyImage
  taxRate : TaxRateImage
  total : Option MoneyImage
  deriving DecidableEq, Repr

/-- The images of the totals of an invoice. -/
structure TotalsImage where
  subtotal : MoneyImage
  totalTax : MoneyImage
  total : MoneyImage
  balanceDue : MoneyImage
  deriving DecidableEq, Repr

/-- The image of an invoice. -/
structure Snapshot where
  id : String
  number : String
  clientId : String
  projectId : Option String
  issuedBy : String
  type : InvoiceType
  status : Status
  currency : String
  dueDate : Date
  frequency : Option Frequency
  notes : Option String
  items : List ItemImage
  totals : Option TotalsImage
  finalizedAt : Option Moment
  sentAt : Option Moment
  paidAt : Option Moment
  voidedAt : Option Moment
  paidAmount : Option MoneyImage
  voidReason : Option String
  version : Int
  deriving DecidableEq, Repr

/-! ## Taking images -/

def MoneyImage.of (m : Money) : MoneyImage := ⟨m.amount.text, m.currency.code⟩

def TaxRateImage.of (t : TaxRate) : TaxRateImage := ⟨t.rate.text, t.kind.name⟩

def ItemImage.of (i : LineItem) : Except Failure ItemImage := do
  let total ← i.total
  return {
    id := i.id.text
    description := i.description.text
    quantity := i.quantity.text
    unitPrice := .of i.unitPrice
    taxRate := .of i.taxRate
    total := some (.of total) }

def TotalsImage.of (inv : Invoice) : Except Failure TotalsImage := do
  let subtotal ← inv.subtotal
  let totalTax ← inv.totalTax
  let total ← inv.total
  let balanceDue ← inv.balanceDue
  return ⟨.of subtotal, .of totalTax, .of total, .of balanceDue⟩

/-- The snapshot of an invoice. There is none if an amount cannot be computed. -/
def Snapshot.of (inv : Invoice) : Except Failure Snapshot := do
  let items ← inv.items.mapM ItemImage.of
  let totals ← TotalsImage.of inv
  return {
    id := inv.id.text
    number := inv.number.value
    clientId := inv.clientId.text
    projectId := inv.projectId
    issuedBy := inv.issuedBy.text
    type := inv.type
    status := inv.status
    currency := inv.currency.code
    dueDate := inv.dueDate
    frequency := inv.frequency
    notes := inv.notes
    items
    totals := some totals
    finalizedAt := inv.finalizedAt
    sentAt := inv.sentAt
    paidAt := inv.paidAt
    voidedAt := inv.voidedAt
    paidAmount := inv.paidAmount.map .of
    voidReason := inv.voidReason
    version := inv.version }

/-! ## Bringing back -/

/-- Takes a text as a number. A text that is no number is a failure of arithmetic. -/
def numeralOf (s : String) : Except Failure Numeral :=
  match Numeral.ofText? s with
  | some n => .ok n
  | none => .error (.arithmetic .invalidOperation)

def MoneyImage.toMoney (m : MoneyImage) : Except Failure Money := do
  let n ← numeralOf m.amount
  Money.of (.decimal n) (.text m.currency)

def TaxRateImage.toTaxRate (t : TaxRateImage) : Except Failure TaxRate := do
  let n ← numeralOf t.rate
  TaxRate.of (.decimal n) (.text t.kind)

/-- The item of an image. It gets a new identifier if its own is empty. -/
def ItemImage.toItem (i : ItemImage) (new : Identifier) : Except Failure LineItem := do
  let quantity ← numeralOf i.quantity
  let unitPrice ← i.unitPrice.toMoney
  let taxRate ← i.taxRate.toTaxRate
  LineItem.of {
    id := some i.id
    description := .text i.description
    quantity := .decimal quantity
    unitPrice := .money unitPrice
    taxRate := some taxRate } new

/-- The items of their images. -/
def itemsOf (images : List ItemImage) (fresh : Fresh) : Except Failure (List LineItem) :=
  images.zipIdx.mapM fun (i, n) => i.toItem (fresh.item n)

/-- Takes an image of money that need not be there. -/
def paidOf : Option MoneyImage → Except Failure (Option Money)
  | some m => m.toMoney.map some
  | none => .ok none

/-- A name that need not be there, as a given value. -/
def givenName {α : Type} (name : α → String) : Option α → Given
  | some a => .text (name a)
  | none => .missing

/-- The invoice of a snapshot. It gets a new identifier if its own is empty; the totals are not
looked at. -/
def Snapshot.toInvoice (s : Snapshot) (fresh : Fresh) : Except Failure Invoice := do
  let items ← itemsOf s.items fresh
  let paidAmount ← paidOf s.paidAmount
  Invoice.restore {
    number := .text s.number
    clientId := .text s.clientId
    issuedBy := .text s.issuedBy
    currency := .text s.currency
    dueDate := .day s.dueDate
    type := .text s.type.name
    projectId := s.projectId
    frequency := givenName Frequency.name s.frequency
    notes := s.notes } {
    id := some s.id
    items
    status := .text s.status.name
    finalizedAt := s.finalizedAt
    sentAt := s.sentAt
    paidAt := s.paidAt
    voidedAt := s.voidedAt
    paidAmount
    voidReason := s.voidReason
    version := s.version } fresh

end Billing
