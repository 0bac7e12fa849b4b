import Billing.Decimal.Arithmetic
import Billing.Decimal.Text

set_option autoImplicit false

/-! # Tax rates

A `TaxRate` is a percentage from 0 to 100 together with the kind of tax it stands for. Two rates
are the same when they have equal value and kind, however many zeros the percentage ends in.
-/

namespace Billing

/-- The kinds of tax. -/
inductive TaxKind where
  | salesTax | vat | gst | stateTax | cityTax | noTax | combinedTax
  deriving DecidableEq, Repr

namespace TaxKind

/-- All kinds of tax. -/
def all : List TaxKind := [salesTax, vat, gst, stateTax, cityTax, noTax, combinedTax]

/-- The name under which a kind is stored. -/
def name : TaxKind → String
  | salesTax => "SALES_TAX"
  | vat => "VAT"
  | gst => "GST"
  | stateTax => "STATE_TAX"
  | cityTax => "CITY_TAX"
  | noTax => "NO_TAX"
  | combinedTax => "COMBINED_TAX"

/-- The label for people. -/
def label : TaxKind → String
  | salesTax => "Sales Tax"
  | vat => "VAT"
  | gst => "GST"
  | stateTax => "State Tax"
  | cityTax => "City Tax"
  | noTax => "No Tax"
  | combinedTax => "Combined Tax"

/-- The kind with a name. -/
def ofName? (name : String) : Option TaxKind := all.find? fun k => k.name == name

theorem ofName?_name (k : TaxKind) : ofName? k.name = some k := by
  cases k <;> decide

end TaxKind

/-- A percentage lies from 0 to 100, both included. -/
def isPercentage (d : Decimal) : Bool := Decimal.zero.le d && d.le Decimal.hundred

/-- A percentage (10 means 10%) and the kind of tax it stands for. -/
structure TaxRate where
  rate : Decimal
  kind : TaxKind
  bounds : isPercentage rate = true ∧ rate.readable = true
  deriving DecidableEq, Repr

namespace TaxRate

theorem isPercentage (t : TaxRate) : Billing.isPercentage t.rate = true := t.bounds.1

theorem readable (t : TaxRate) : t.rate.readable = true := t.bounds.2

/-- The rate of untaxed items. -/
def noTax : TaxRate := ⟨.zero, .noTax, by decide, Decimal.readable_zero⟩

def isZero (t : TaxRate) : Bool := t.rate.isZero

/-- Rates are the same when percentage and kind are, the percentages compared by value. -/
def same (a b : TaxRate) : Bool := a.rate.same b.rate && a.kind == b.kind

/-- Whether the first percentage is above the second. -/
def above (a b : TaxRate) : Bool := b.rate.lt a.rate

/-- Whether the first percentage is below the second. -/
def below (a b : TaxRate) : Bool := a.rate.lt b.rate

/-- The rate as a fraction of one. -/
def fraction (t : TaxRate) : Except Decimal.Signal Decimal := t.rate.div Decimal.hundred

/-- The kind of tax and the percentage with two places; all zero rates read alike. -/
def display (t : TaxRate) : String :=
  if t.isZero then "No Tax (0%)" else t.kind.label ++ " (" ++ t.rate.fixed 2 ++ "%)"

end TaxRate

end Billing
