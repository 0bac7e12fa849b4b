set_option autoImplicit false

/-! # Kinds of invoices

The states an invoice goes through (`Status`) and the states that may follow each of them
(`Status.next`), the types of invoices (`InvoiceType`) and the periods of recurring ones
(`Frequency`). Each is stored under a name.
-/

namespace Billing

/-- Where an invoice stands. -/
inductive Status where
  | draft | finalized | sent | partiallyPaid | paid | overpaid | void
  deriving DecidableEq, Repr

namespace Status

/-- All states. -/
def all : List Status := [draft, finalized, sent, partiallyPaid, paid, overpaid, void]

def name : Status → String
  | draft => "DRAFT"
  | finalized => "FINALIZED"
  | sent => "SENT"
  | partiallyPaid => "PARTIALLY_PAID"
  | paid => "PAID"
  | overpaid => "OVERPAID"
  | void => "VOID"

def ofName? (name : String) : Option Status := all.find? fun s => s.name == name

/-- The states that may follow a state. Part payments may follow each other, and everything but a
paid or void invoice may be voided. -/
def next : Status → List Status
  | draft => [finalized, void]
  | finalized => [sent, void]
  | sent => [partiallyPaid, paid, overpaid, void]
  | partiallyPaid => [partiallyPaid, paid, overpaid, void]
  | overpaid => [void]
  | paid => []
  | void => []

/-- The states in which a payment is awaited. -/
def isPayable (s : Status) : Bool := s == sent || s == partiallyPaid

theorem ofName?_name (s : Status) : ofName? s.name = some s := by
  cases s <;> decide

end Status

/-- Whether an invoice stands alone or repeats. -/
inductive InvoiceType where
  | standard | recurring
  deriving DecidableEq, Repr

namespace InvoiceType

def all : List InvoiceType := [standard, recurring]

def name : InvoiceType → String
  | standard => "STANDARD"
  | recurring => "RECURRING"

def ofName? (name : String) : Option InvoiceType := all.find? fun t => t.name == name

theorem ofName?_name (t : InvoiceType) : ofName? t.name = some t := by
  cases t <;> decide

end InvoiceType

/-- The billing period of a recurring invoice. -/
inductive Frequency where
  | weekly | monthly | quarterly | yearly
  deriving DecidableEq, Repr

namespace Frequency

def all : List Frequency := [weekly, monthly, quarterly, yearly]

def name : Frequency → String
  | weekly => "WEEKLY"
  | monthly => "MONTHLY"
  | quarterly => "QUARTERLY"
  | yearly => "YEARLY"

def ofName? (name : String) : Option Frequency := all.find? fun f => f.name == name

theorem ofName?_name (f : Frequency) : ofName? f.name = some f := by
  cases f <;> decide

end Frequency

end Billing
