import Billing.Invoice.Proration
import Billing.Settings.Basic
import Billing.Store.Basic

set_option autoImplicit false

/-! # The invoice service

The service carries out the calls of its users on a store: it loads an invoice, makes one change
and saves it, or it makes a new invoice under a number that is free. Other writers may use the same
store, so a number that was free can be taken by the time the invoice is saved; then the next one
is tried.
-/

namespace Billing

/-- What a service works with: the store's calls, its settings, the present moment, and the
identifiers for the things it makes, by how many have been made before. -/
structure Service (σ : Type) where
  repository : Repository σ
  settings : Settings
  clock : Moment
  fresh : Nat → Fresh

/-- What calls of a service change: the store, the counter of invoice numbers, and how many times
new identifiers have been used. -/
structure Desk (σ : Type) where
  store : σ
  counter : Counter
  made : Nat

/-- A call of a service. -/
abbrev Call (σ α : Type) : Type := Procedure StoreFailure (Desk σ) α

namespace Call

variable {σ α : Type}

/-- A step on the store. -/
def access (step : Access σ α) : Call σ α :=
  step.onPart Desk.store fun desk store => { desk with store }

/-- A computation on invoices. -/
def ofResult (r : Except Failure α) : Call σ α :=
  match r with
  | .ok a => pure a
  | .error e => throw (.refused e)

end Call

namespace Service

variable {σ : Type}

open Call

/-! ## New invoices -/

/-- The next number of a series. -/
def drawNumber (series : String) : Call σ InvoiceNumber := do
  let desk ← get
  let (r, counter) := InvoiceNumber.generate series desk.counter
  set { desk with counter }
  ofResult r

/-- New identifiers. -/
def drawFresh (s : Service σ) : Call σ Fresh := do
  let desk ← get
  set { desk with made := desk.made + 1 }
  return s.fresh desk.made

/-- Draws numbers until one is free, at most `n` of them. -/
def freeNumber? (s : Service σ) (series : String) : Nat → Call σ (Option InvoiceNumber)
  | 0 => return none
  | n + 1 => do
      let number ← drawNumber series
      if ← access (s.repository.existsNumber number.value) then freeNumber? s series n
      else return some number

/-- A number of a series that is free. -/
def allocateNumber (s : Service σ) (series : String) : Call σ InvoiceNumber := do
  let attempts := s.settings.attempts.count
  match ← freeNumber? s series attempts with
  | some number => return number
  | none => throw (.refused (.broken (.freeNumber series attempts)))

/-- Saves a new invoice, unless its number has been taken. -/
def saveUnlessTaken? (s : Service σ) (inv : Invoice) : Call σ (Option Invoice) :=
  tryCatch (do return some (← access (s.repository.save inv))) fun e =>
    match e with
    | .numberTaken _ => return none
    | e => throw e

/-- Makes and saves an invoice under a free number, and tries again with another number when that
one is taken before the invoice is saved, at most `n` times in all. -/
def storedNew? (s : Service σ) (series : String)
    (make : InvoiceNumber → Fresh → Except Failure Invoice) : Nat → Call σ (Option Invoice)
  | 0 => return none
  | n + 1 => do
      let number ← s.allocateNumber series
      let inv ← ofResult (make number (← s.drawFresh))
      match ← s.saveUnlessTaken? inv with
      | some saved => return some saved
      | none => storedNew? s series make n

/-- Makes and saves an invoice under a free number. -/
def storeNew (s : Service σ) (series : String)
    (make : InvoiceNumber → Fresh → Except Failure Invoice) : Call σ Invoice := do
  let attempts := s.settings.attempts.count
  match ← s.storedNew? series make attempts with
  | some saved => return saved
  | none => throw (.refused (.broken (.storedNumber series attempts)))

/-- A day, or the present one. -/
def today (s : Service σ) (day : Option Date) : Date := day.getD s.clock.date

/-- Makes and saves a draft with items. The number among the fields is not looked at. -/
def createInvoice (s : Service σ) (f : InvoiceFields) (items : List LineItem)
    (day : Option Date) : Call σ Invoice :=
  s.storeNew s.settings.invoiceSeries.letters fun number fresh => do
    let draft ← Invoice.create { f with number := .text number.value } (s.today day) fresh
    draft.withItems items

/-! ## Stored invoices -/

def getInvoice (s : Service σ) (id : String) : Call σ Invoice := do
  match ← access (s.repository.findById id) with
  | some inv => return inv
  | none => throw (.noSuchId id)

def getInvoiceByNumber (s : Service σ) (number : String) : Call σ Invoice := do
  match ← access (s.repository.findByNumber number) with
  | some inv => return inv
  | none => throw (.noSuchNumber number)

def listOverdue (s : Service σ) (day : Option Date) : Call σ (List Invoice) :=
  access (s.repository.findOverdue (s.today day))

/-- Whether what a command has done can be reported. The report of a payment displays it. -/
def isReportable : Command → Bool
  | .recordPayment payment _ => payment.hasDisplay
  | _ => true

/-- Loads an invoice, carries out a command on it, and saves it. The report of it is worded before
anything else. -/
def perform (s : Service σ) (id : String) (command : Command) : Call σ Invoice := do
  unless isReportable command do throw .noDisplay
  let inv ← s.getInvoice id
  let changed ← ofResult (Edit.result (Invoice.apply s.clock command) inv)
  access (s.repository.save changed)

/-- Makes and saves a prorated invoice. The number is only drawn when the proration has been
checked. -/
def prorate (s : Service σ) (id : String) (start finish : Given) (day : Option Date) :
    Call σ Invoice := do
  let source ← s.getInvoice id
  let (checked, source) := (Invoice.checkProration start finish (s.today day)).on source
  ofResult checked
  s.storeNew s.settings.prorationSeries.letters fun number fresh =>
    ((Invoice.prorate start finish (pure number) (s.today day) fresh).on source Counter.start).1.1

end Service

end Billing
