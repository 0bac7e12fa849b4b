import Billing.Decimal.Text
import Billing.Money.Currency

set_option autoImplicit false

/-! # Amounts and money

An `Amount` is a whole number of cents with at most 28 digits; `Amount.ofDecimal?` rounds a decimal
to the nearest one. `Money` is an amount in a currency. Money is displayed with the symbol of its
currency (`Money.display`) and written with its code (`Money.text`).
-/

namespace Billing

/-- A whole number of cents with at most 28 digits. As in a decimal, zero has a sign. -/
structure Amount where
  negative : Bool
  cents : Nat
  cents_lt : cents < tenTo Decimal.precision
  deriving DecidableEq, Repr

namespace Amount

/-- The amount as a decimal with two places. -/
def toDecimal (a : Amount) : Decimal := ⟨a.negative, a.cents, -2⟩

def zero : Amount := ⟨false, 0, by decide⟩

/-- The amount nearest to a decimal, a half cent going away from zero. There is none if it would
need more than 28 digits. -/
def ofDecimal? (d : Decimal) : Option Amount :=
  if !d.isZero && (Decimal.precision : Int) < d.digits + (d.exponent + 2) then none
  else
    let cents := d.scaled .awayFromZero 2
    if h : cents < tenTo Decimal.precision then some ⟨d.negative, cents, h⟩ else none

/-- The amount in cents, with its sign. -/
def signedCents (a : Amount) : Int := if a.negative then -(a.cents : Int) else a.cents

def isZero (a : Amount) : Bool := a.cents = 0

def isPositive (a : Amount) : Bool := 0 < a.signedCents

def isNegative (a : Amount) : Bool := a.signedCents < 0

/-- The whole units and the two places of an amount, without its sign. -/
def unitsAndPlaces (a : Amount) : List Char × List Char :=
  let ds := Text.zeroFill 3 (Digits.chars a.cents)
  (ds.take (ds.length - 2), ds.drop (ds.length - 2))

/-- The amount with two places, and with a sign if it has one: `-0.00` keeps it. -/
def text (a : Amount) : String := a.toDecimal.text

end Amount

/-- An amount in a currency. -/
structure Money where
  amount : Amount
  currency : Currency
  deriving DecidableEq, Repr

namespace Money

def zero (currency : Currency) : Money := ⟨.zero, currency⟩

def isZero (m : Money) : Bool := m.amount.isZero

def isPositive (m : Money) : Bool := m.amount.isPositive

def isNegative (m : Money) : Bool := m.amount.isNegative

/-- The currency code and the amount. -/
def text (m : Money) : String := m.currency.code ++ " " ++ m.amount.text

/-- Money as displayed: a minus sign for amounts below zero, the symbol of the currency, the whole
units in groups of three digits, and two places. -/
def displayChars (m : Money) : List Char :=
  let parts := m.amount.unitsAndPlaces
  (if m.isNegative then ['-'] else []) ++ m.currency.symbol.toList ++
    Text.groupThousands parts.1 ++ '.' :: parts.2

def display (m : Money) : String := String.ofList m.displayChars

end Money

end Billing
