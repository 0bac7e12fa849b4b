import Billing.Decimal.Rounding
import Billing.Invoice.Kinds
import Billing.Money.Basic

set_option autoImplicit false

/-! # Failures

Why an operation is refused. A value is missing or not acceptable, a `Rule` of the business is
broken, or an amount cannot be computed at all. `Failure.message` words each of them.
-/

namespace Billing

/-- What is done with two amounts that have to be in one currency. -/
inductive Pairing where
  | add | subtract | compare
  deriving DecidableEq, Repr

def Pairing.name : Pairing → String
  | add => "add"
  | subtract => "subtract"
  | compare => "compare"

/-- What is done to the items of an invoice. -/
inductive ItemChange where
  | add | remove | update
  deriving DecidableEq, Repr

def ItemChange.phrase : ItemChange → String
  | add => "add items to"
  | remove => "remove items from"
  | update => "update items in"

/-- The rules of the business, each with what broke it. -/
inductive Rule where
  | differentCurrencies (pairing : Pairing) (left right : Currency)
  | itemCurrency (item invoice : Currency)
  | paidCurrency (paid invoice : Currency)
  | paymentCurrency (payment invoice : Currency)
  | onlyDraft (change : ItemChange)
  | itemExists (id : String)
  | itemMissing (id : String)
  | finalizeOnlyDraft
  | finalizeWithItems
  | sendOnlyFinalized
  | payOnlyAwaited
  | payPositive
  | payTotal (payment total : Money)
  | noTransition (source target : Status)
  | voidOnce
  | voidUnpaid
  | voidAllowed (source : Status)
  | dueInFuture
  | recurringFrequency
  | prorateRecurring
  | periodInOrder
  | freeNumber (series : String) (attempts : Nat)
  | storedNumber (series : String) (attempts : Nat)
  deriving DecidableEq, Repr

/-- The wording of a broken rule. -/
def Rule.message : Rule → String
  | differentCurrencies pairing left right =>
      "Cannot " ++ pairing.name ++ " different currencies: " ++ left.code ++ " and " ++ right.code
  | itemCurrency item invoice =>
      "Item currency " ++ item.code ++ " does not match invoice currency " ++ invoice.code
  | paidCurrency paid invoice =>
      "Paid amount currency " ++ paid.code ++ " does not match invoice currency " ++ invoice.code
  | paymentCurrency payment invoice =>
      "Payment currency " ++ payment.code ++ " does not match invoice currency " ++ invoice.code
  | onlyDraft change => "Cannot " ++ change.phrase ++ " non-draft invoice"
  | itemExists id => "Item with id " ++ id ++ " already exists"
  | itemMissing id => "Item with id " ++ id ++ " not found"
  | finalizeOnlyDraft => "Only draft invoices can be finalized"
  | finalizeWithItems => "Cannot finalize invoice without items"
  | sendOnlyFinalized => "Only finalized invoices can be sent"
  | payOnlyAwaited => "Can only record payments for sent or partially paid invoices"
  | payPositive => "Payment amount must be positive"
  | payTotal payment total =>
      "Payment amount " ++ payment.display ++ " does not match total due " ++ total.display
  | noTransition source target => "Cannot move from " ++ source.name ++ " to " ++ target.name
  | voidOnce => "Invoice is already voided"
  | voidUnpaid => "Cannot void a paid invoice"
  | voidAllowed source => "Cannot void a " ++ source.name ++ " invoice"
  | dueInFuture => "Due date must be in the future"
  | recurringFrequency => "Recurring invoices must have a frequency"
  | prorateRecurring => "Only recurring invoices can be prorated"
  | periodInOrder => "Start date must be before end date"
  | freeNumber series attempts =>
      "Could not allocate a unique invoice number with prefix " ++ series ++ " after " ++
        Digits.text attempts ++ " attempts"
  | storedNumber series attempts =>
      "Could not store an invoice with a unique number with prefix " ++ series ++ " after " ++
        Digits.text attempts ++ " attempts"

/-- Why an operation is refused. -/
inductive Failure where
  /-- a field has no value -/
  | required (field : String)
  /-- a field has a value that it cannot take; the message shows the value -/
  | invalid (field shown : String)
  /-- a rule of the business is broken -/
  | broken (rule : Rule)
  /-- an amount cannot be computed -/
  | arithmetic (signal : Decimal.Signal)
  deriving DecidableEq, Repr

/-- What callers tell failures apart by. -/
inductive FailureCode where
  | requiredField | invalidValue | ruleViolation
  deriving DecidableEq, Repr

/-- The code as callers see it. -/
def FailureCode.text : FailureCode → String
  | requiredField => "REQUIRED_FIELD"
  | invalidValue => "INVALID_VALUE"
  | ruleViolation => "BUSINESS_RULE_VIOLATION"

namespace Failure

/-- The code of a failure; failures of arithmetic have none. -/
def code? : Failure → Option FailureCode
  | required _ => some .requiredField
  | invalid _ _ => some .invalidValue
  | broken _ => some .ruleViolation
  | arithmetic _ => none

/-- Failures other than those of arithmetic are meant for the people who use the program. -/
def isForPeople : Failure → Bool
  | arithmetic _ => false
  | _ => true

/-- The field a failure is about. -/
def field? : Failure → Option String
  | required field => some field
  | invalid field _ => some field
  | _ => none

/-- The wording of a failure; failures of arithmetic have none. -/
def message : Failure → String
  | required field => field ++ " is required"
  | invalid field shown => "Invalid value for " ++ field ++ ": " ++ shown
  | broken rule => rule.message
  | arithmetic _ => ""

end Failure

/-- A computation on decimals whose failure is that of the operation. -/
def ofSignal {α : Type} (r : Except Decimal.Signal α) : Except Failure α :=
  match r with
  | .ok a => .ok a
  | .error s => .error (.arithmetic s)

end Billing
