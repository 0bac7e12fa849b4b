import Billing.Snapshot.Basic
import Billing.Store.Basic

set_option autoImplicit false

/-! # Invoices kept in tables

`Tables` are two relations: one row for each invoice, and one row for each of its items with the
item's position. Identifiers and numbers of invoices are unique, and so are the identifiers of the
items of one invoice. Amounts are stored as text, and times as wall clock readings without their
offsets. A save either happens as a whole or not at all.
-/

namespace Billing

/-- The row of an invoice. -/
structure InvoiceRow where
  id : String
  number : String
  clientId : String
  projectId : Option String
  issuedBy : String
  type : String
  status : String
  currency : String
  dueDate : Date
  frequency : Option String
  notes : Option String
  finalizedAt : Option Moment
  sentAt : Option Moment
  paidAt : Option Moment
  voidedAt : Option Moment
  paidAmount : Option String
  voidReason : Option String
  version : Int
  deriving DecidableEq, Repr

/-- The row of an item. Its currency is that of the invoice. -/
structure ItemRow where
  invoiceId : String
  id : String
  position : Nat
  description : String
  quantity : String
  unitPrice : String
  taxRate : String
  taxKind : String
  deriving DecidableEq, Repr

/-- The rows of invoices, in the order in which they were inserted, and the rows of items. -/
structure Tables where
  invoices : List InvoiceRow
  items : List ItemRow
  deriving DecidableEq, Repr

namespace Tables

def empty : Tables := ⟨[], []⟩

/-! ## Rows of an invoice -/

/-- The row of an invoice at a version. Times lose their offsets. -/
def rowOf (inv : Invoice) (version : Int) : InvoiceRow where
  id := inv.id.text
  number := inv.number.value
  clientId := inv.clientId.text
  projectId := inv.projectId
  issuedBy := inv.issuedBy.text
  type := inv.type.name
  status := inv.status.name
  currency := inv.currency.code
  dueDate := inv.dueDate
  frequency := inv.frequency.map Frequency.name
  notes := inv.notes
  finalizedAt := inv.finalizedAt.map Moment.wallClock
  sentAt := inv.sentAt.map Moment.wallClock
  paidAt := inv.paidAt.map Moment.wallClock
  voidedAt := inv.voidedAt.map Moment.wallClock
  paidAmount := inv.paidAmount.map fun m => m.amount.text
  voidReason := inv.voidReason
  version

/-- The row of the item at a position of an invoice. -/
def itemRow (invoiceId : String) (item : LineItem) (position : Nat) : ItemRow where
  invoiceId
  id := item.id.text
  position
  description := item.description.text
  quantity := item.quantity.text
  unitPrice := item.unitPrice.amount.text
  taxRate := item.taxRate.rate.text
  taxKind := item.taxRate.kind.name

/-- The rows of the items of an invoice. -/
def itemRows (inv : Invoice) : List ItemRow :=
  inv.items.zipIdx.map fun (item, n) => itemRow inv.id.text item n

/-! ## Invoices of rows -/

/-- The item of a row in the currency of its invoice. -/
def itemOf (currency : String) (row : ItemRow) : Except Failure LineItem := do
  let quantity ← numeralOf row.quantity
  let unitPrice ← MoneyImage.toMoney ⟨row.unitPrice, currency⟩
  let taxRate ← TaxRateImage.toTaxRate ⟨row.taxRate, row.taxKind⟩
  LineItem.of {
    id := some row.id
    description := .text row.description
    quantity := .decimal quantity
    unitPrice := .money unitPrice
    taxRate := some taxRate } (.forItem 0)

/-- The rows of the items of an invoice by their positions. -/
def itemsOf (tables : Tables) (id : String) : List ItemRow :=
  (tables.items.filter fun row => row.invoiceId == id).mergeSort
    fun a b => decide (a.position ≤ b.position)

/-- The invoice of a row and of the rows of its items. Times are read by a clock that shows
universal time. -/
def toInvoice (tables : Tables) (row : InvoiceRow) : Except Failure Invoice := do
  let items ← (tables.itemsOf row.id).mapM (itemOf row.currency)
  let paidAmount ← paidOf (row.paidAmount.map fun s => ⟨s, row.currency⟩)
  Invoice.restore {
    number := .text row.number
    clientId := .text row.clientId
    issuedBy := .text row.issuedBy
    currency := .text row.currency
    dueDate := .day row.dueDate
    type := .text row.type
    projectId := row.projectId
    frequency := givenName id row.frequency
    notes := row.notes } {
    id := some row.id
    items
    status := .text row.status
    finalizedAt := row.finalizedAt.map Moment.atUniversal
    sentAt := row.sentAt.map Moment.atUniversal
    paidAt := row.paidAt.map Moment.atUniversal
    voidedAt := row.voidedAt.map Moment.atUniversal
    paidAmount
    voidReason := row.voidReason
    version := row.version } (Fresh.following 0)

/-! ## Saving -/

/-- The version in the row of an invoice. -/
def version? (tables : Tables) (id : String) : Option Int :=
  (tables.invoices.find? fun row => row.id == id).map InvoiceRow.version

/-- The identifier of the invoice that has a number. -/
def owner? (tables : Tables) (number : String) : Option String :=
  (tables.invoices.find? fun row => row.number == number).map InvoiceRow.id

/-- Whether no two rows are of one item. -/
def keysDistinct : List ItemRow → Bool
  | [] => true
  | row :: rows =>
      rows.all (fun r => !(r.invoiceId == row.invoiceId && r.id == row.id)) && keysDistinct rows

/-- The tables with a new invoice, unless that would violate a constraint. -/
def insert? (tables : Tables) (inv : Invoice) : Option Tables :=
  let items := tables.items ++ itemRows inv
  if tables.invoices.any (fun row => row.id == inv.id.text || row.number == inv.number.value) ||
      !keysDistinct items then none
  else some ⟨tables.invoices ++ [rowOf inv 1], items⟩

/-- The tables with the row of an invoice and the rows of its items replaced, unless that would
violate a constraint. -/
def replace? (tables : Tables) (inv : Invoice) : Option Tables :=
  let items := (tables.items.filter fun row => row.invoiceId != inv.id.text) ++ itemRows inv
  if tables.invoices.any (fun row => row.id != inv.id.text && row.number == inv.number.value) ||
      !keysDistinct items then none
  else
    some ⟨tables.invoices.map fun row =>
      if row.id == inv.id.text then rowOf inv (inv.version + 1) else row, items⟩

/-- Why a constraint is violated by saving an invoice: a new invoice is stored already, or another
one has its number. -/
def violation (tables : Tables) (inv : Invoice) : StoreFailure :=
  match inv.version == 0, tables.version? inv.id.text, tables.owner? inv.number.value with
  | true, some stored, _ => .conflict inv.id.text inv.version (some stored)
  | _, _, some owner =>
      if owner == inv.id.text then .constraintViolated else .numberTaken inv.number.value
  | _, _, none => .constraintViolated

/-- Whether a version fits into its column, a signed integer of 64 bits. -/
def fitsColumn (version : Int) : Bool := -(twoTo 63 : Int) ≤ version && version < (twoTo 63 : Int)

/-- Puts the tables in place of the stored ones, or fails because of a violated constraint. -/
def commit (inv : Invoice) (changed : Option Tables) : Access Tables Unit := do
  match changed with
  | some tables => set tables
  | none => throw ((← get).violation inv)

/-- Writes an invoice under its next version. -/
def write (inv : Invoice) : Access Tables Unit := do
  let tables ← get
  if inv.version = 0 then commit inv (tables.insert? inv)
  else
    unless fitsColumn inv.version && fitsColumn (inv.version + 1) do throw .versionTooLarge
    if tables.version? inv.id.text ≠ some inv.version then
      throw (.conflict inv.id.text inv.version (tables.version? inv.id.text))
    commit inv (tables.replace? inv)

/-- Saves the copy of an invoice that a caller holds. -/
def saving : Saving Tables Unit := .through write

def save (inv : Invoice) : Access Tables Invoice := saving.copyOf inv

/-! ## Looking up -/

/-- The invoices of the given rows. -/
def load (rows : List InvoiceRow) : Access Tables (List Invoice) := do
  let tables ← get
  Access.ofResult (rows.mapM tables.toInvoice)

/-- The invoices whose rows pass a test. -/
def loadWhere (test : InvoiceRow → Bool) : Access Tables (List Invoice) := do
  load ((← get).invoices.filter test)

/-- Whether a row is of an invoice that awaits a payment. -/
def isPayable (row : InvoiceRow) : Bool :=
  row.status == Status.sent.name || row.status == Status.partiallyPaid.name

def findOverdue (today : Date) : Access Tables (List Invoice) := do
  let rows := (← get).invoices.filter fun row => isPayable row && row.dueDate.lt today
  load (rows.mergeSort fun a b => a.dueDate.le b.dueDate)

def delete (id : String) : Access Tables Bool := do
  let tables ← get
  set (⟨tables.invoices.filter fun row => row.id != id,
    tables.items.filter fun row => row.invoiceId != id⟩ : Tables)
  return tables.invoices.any fun row => row.id == id

/-- The tables as a repository. -/
def repository : Repository Tables where
  save
  findById id := do return (← loadWhere fun row => row.id == id).head?
  findByNumber number := do return (← loadWhere fun row => row.number == number).head?
  findByClient client := loadWhere fun row => row.clientId == client
  findByStatus status := loadWhere fun row => row.status == status.name
  findOverdue
  findDraftsBy user := loadWhere fun row =>
    row.issuedBy == user && row.status == Status.draft.name
  existsNumber number := do return (← get).invoices.any fun row => row.number == number
  delete

end Tables

end Billing
