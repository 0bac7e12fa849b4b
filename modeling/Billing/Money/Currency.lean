set_option autoImplicit false

/-! # Currencies

The currencies that amounts can be in, each with its code and the symbol it is displayed with.
-/

namespace Billing

/-- A supported currency. -/
inductive Currency where
  | usd | eur | gbp | jpy | cad | aud | chf | cny | inr
  deriving DecidableEq, Repr

namespace Currency

/-- All supported currencies. -/
def all : List Currency := [usd, eur, gbp, jpy, cad, aud, chf, cny, inr]

/-- The three-letter code. -/
def code : Currency → String
  | usd => "USD"
  | eur => "EUR"
  | gbp => "GBP"
  | jpy => "JPY"
  | cad => "CAD"
  | aud => "AUD"
  | chf => "CHF"
  | cny => "CNY"
  | inr => "INR"

/-- The symbol in front of a displayed amount. -/
def symbol : Currency → String
  | usd => "$"
  | eur => "€"
  | gbp => "£"
  | jpy => "¥"
  | cad => "CA$"
  | aud => "A$"
  | chf => "CHF "
  | cny => "CN¥"
  | inr => "₹"

/-- The currency with a code. -/
def ofCode? (code : String) : Option Currency := all.find? fun c => c.code == code

theorem ofCode?_code (c : Currency) : ofCode? c.code = some c := by
  cases c <;> decide

end Currency

end Billing
