import Billing.Calendar.TimeSpan
import Billing.Invoice.Lifecycle

set_option autoImplicit false

/-! # Proration

A recurring invoice can be prorated: a new standard invoice charges each item for a part of the
billing period, at the unit price times the started days of the part (`wholeDays`) over 30. The
part lies between two dates or moments (`spanOf`). To check whether an invoice can be prorated is
an `Edit` like others, and to prorate it is a step on it that can also draw a number (`Prorating`).
-/

namespace Billing

/-- A billing period counts as this many days. -/
def referenceDays : Decimal := .ofInt 30

/-- The days of a span of microseconds; a day that is only begun counts as a whole one. -/
def wholeDays (span : Int) : Int := (TimeSpan.ofMicros span).wholeDays

theorem wholeDays_le_iff {span k : Int} : wholeDays span ≤ k ↔ span ≤ k * microsPerDay := by
  rw [wholeDays, TimeSpan.wholeDays_le_iff, TimeSpan.inMicros_ofMicros]

/-- A date or a moment. -/
inductive PeriodEnd where
  | day (d : Date)
  | moment (m : Moment)
  deriving DecidableEq, Repr

namespace PeriodEnd

/-- Takes a given value as an end of a period. -/
def of (field : String) : Given → Except Failure PeriodEnd
  | .missing => .error (.required field)
  | .day d => .ok (day d)
  | .moment m => .ok (moment m)
  | g => .error (.invalid field g.shown)

/-- The moment itself; a date is its midnight, by the clock of the other end of the period. -/
def momentBeside (clock : Moment) : PeriodEnd → Moment
  | day d => { clock with date := d, clock := 0, clock_lt := microsPerDay_pos }
  | moment m => m

/-- The date, or the date of the moment. -/
def date : PeriodEnd → Date
  | day d => d
  | moment m => m.date

/-- The span between two moments in microseconds. A moment with an offset and one without have no
span between them. -/
def spanBetween (start finish : Moment) : Except Failure Int :=
  if start.offset.isNone = finish.offset.isNone then .ok (finish.instant - start.instant)
  else .error (.invalid "endDate" (finish.text ++ " mixes naive and aware times"))

/-- The span from one end of a period to the other in microseconds. -/
def span : PeriodEnd → PeriodEnd → Except Failure Int
  | day a, day b => .ok (((b.ordinal : Int) - a.ordinal) * microsPerDay)
  | moment a, finish => spanBetween a (finish.momentBeside a)
  | day a, moment b => spanBetween ((day a).momentBeside b) b

end PeriodEnd

/-- The span between two given ends of a period in microseconds. -/
def spanOf (start finish : Given) : Except Failure Int := do
  let start ← PeriodEnd.of "startDate" start
  let finish ← PeriodEnd.of "endDate" finish
  start.span finish

namespace Invoice

/-- An item for a part of the billing period. -/
def proratedItem (factor : Decimal) (item : LineItem) (id : Identifier) :
    Except Failure LineItem := do
  let price ← item.unitPrice.scale factor
  LineItem.of {
    description := .text (item.description.text ++ " (Prorated)")
    quantity := .decimal (.finite item.quantity)
    unitPrice := .money price
    taxRate := some item.taxRate } id

/-- The items for a part of the billing period. -/
def proratedItems (inv : Invoice) (start finish : Given) (fresh : Fresh) :
    Except Failure (List LineItem) := do
  unless inv.type = .recurring do throw (.broken .prorateRecurring)
  let span ← spanOf start finish
  if span ≤ 0 then throw (.broken .periodInOrder)
  let factor ← ofSignal ((Decimal.ofInt (wholeDays span)).div referenceDays)
  inv.items.zipIdx.mapM fun (item, n) =>
    proratedItem factor item (fresh.item n)

/-- Checks that the invoice can be prorated, without making a new one. -/
def checkProration (start finish : Given) (today : Date) : Edit Unit := do
  let inv ← get
  let _ ← inv.proratedItems start finish (Fresh.following 0)
  requireFuture inv.dueDate today

/-- The dates between which a prorated invoice charges. -/
def periodText (start finish : Given) : String :=
  let text (g : Given) := (g.date?.map Date.text).getD ""
  "Prorated invoice for period " ++ text start ++ " to " ++ text finish

/-- An invoice with items added one after the other. -/
def withItems (inv : Invoice) (items : List LineItem) : Except Failure Invoice :=
  items.foldlM (fun inv item => (addItem item).result inv) inv

/-- A way to obtain a number for a new invoice, possibly by drawing on a counter. -/
abbrev Numbering (α : Type) : Type := Procedure Failure Counter α

/-- The next number of a series. -/
def nextNumber (series : String) : Numbering InvoiceNumber :=
  ExceptT.mk (InvoiceNumber.generate series)

/-- The series of prorated invoices when none is asked for. -/
def prorationSeries : String := "PRO"

/-- A step on an invoice that can also draw on a counter. -/
abbrev Prorating (α : Type) : Type := Procedure Failure (Invoice × Counter) α

namespace Prorating

/-- The result of a step, the invoice after it and the counter after it. -/
def on {α : Type} (step : Prorating α) (inv : Invoice) (c : Counter) :
    (Except Failure α × Invoice) × Counter :=
  let (r, inv, c) := Procedure.on step (inv, c)
  ((r, inv), c)

/-- Obtains a number beside the invoice. -/
def number {α : Type} (numbering : Numbering α) : Prorating α :=
  numbering.onPart Prod.snd fun state c => (state.1, c)

end Prorating

/-- What the new invoice is made from. -/
def prorationFields (inv : Invoice) (start finish : Given) (number : InvoiceNumber) :
    InvoiceFields where
  number := .text number.value
  clientId := .text inv.clientId.text
  issuedBy := .text inv.issuedBy.text
  currency := .text inv.currency.code
  dueDate := .day inv.dueDate
  projectId := inv.projectId
  notes := some (periodText start finish)

/-- Makes a new standard invoice for a part of the billing period. Its number is obtained when all
else has been checked. -/
def prorate (start finish : Given) (numbering : Numbering InvoiceNumber) (today : Date)
    (fresh : Fresh) : Prorating Invoice := do
  let (inv, _) ← get
  let items ← inv.proratedItems start finish fresh
  requireFuture inv.dueDate today
  let number ← Prorating.number numbering
  let draft ← create (inv.prorationFields start finish number) today fresh
  draft.withItems items

end Invoice

end Billing
