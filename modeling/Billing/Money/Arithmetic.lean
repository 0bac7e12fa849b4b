import Billing.Decimal.Arithmetic
import Billing.Given

set_option autoImplicit false

/-! # Making and computing money

Money is made from given values (`Money.of`), which must be a number with at most two places and a
supported currency. Sums, differences, products and quotients are rounded to cents, a half going
away from zero; money of different currencies is neither added nor compared.
-/

namespace Billing

/-- The amount nearest to a decimal; it is refused when it has too many digits. -/
def Amount.round (d : Decimal) : Except Failure Amount :=
  match Amount.ofDecimal? d with
  | some a => .ok a
  | none => .error (.invalid "amount" d.text)

/-- A numeral rounded to cents. What is not a number stays so, with the last 28 of its digits; an
infinity has no cents. -/
def Numeral.toCents : Numeral → Except Failure Numeral
  | finite d => do return finite (← Amount.round d).toDecimal
  | notANumber negative false payload =>
      .ok (notANumber negative false
        ((payload.map (· % tenTo Decimal.precision)).filter (· ≠ 0)))
  | n => .error (.invalid "amount" n.text)

/-- Takes a given value as a currency code. -/
def Currency.ofGiven (g : Given) : Except Failure Currency := g.choose "currency" Currency.ofCode?

namespace Money

/-- Money from a given amount and a given currency. An amount that has more than two places, as
far as 28 digits show, is refused. -/
def of (amount currency : Given) : Except Failure Money := do
  let d ← amount.toDecimal "amount"
  let reduced ← ofSignal d.normalize
  if reduced.exponent < -2 then
    throw (.invalid "amount" ("too many decimal places: " ++ amount.shown))
  let a ← Amount.round d
  let c ← Currency.ofGiven currency
  return ⟨a, c⟩

/-- Nothing, in a given currency. -/
def zeroOf (currency : Given) : Except Failure Money := of (.decimal (.finite .zero)) currency

/-- Refuses a pair of different currencies. -/
def requireSame (pairing : Pairing) (a b : Money) : Except Failure Unit :=
  if a.currency = b.currency then .ok ()
  else .error (.broken (.differentCurrencies pairing a.currency b.currency))

/-! ## Arithmetic -/

def add (a b : Money) : Except Failure Money := do
  requireSame .add a b
  let sum ← ofSignal (a.amount.toDecimal.add b.amount.toDecimal)
  return ⟨← Amount.round sum, a.currency⟩

def subtract (a b : Money) : Except Failure Money := do
  requireSame .subtract a b
  let difference ← ofSignal (a.amount.toDecimal.sub b.amount.toDecimal)
  return ⟨← Amount.round difference, a.currency⟩

/-- The product with a decimal. -/
def scale (m : Money) (factor : Decimal) : Except Failure Money := do
  let product ← ofSignal (m.amount.toDecimal.mul factor)
  return ⟨← Amount.round product, m.currency⟩

/-- The product with a given number. -/
def multiply (m : Money) (factor : Given) : Except Failure Money := do
  m.scale (← factor.toDecimal "factor")

/-- The quotient by a given number, which must not be zero. -/
def divide (m : Money) (divisor : Given) : Except Failure Money := do
  let d ← divisor.toDecimal "divisor"
  if d.isZero then throw (.invalid "divisor" divisor.shown)
  let quotient ← ofSignal (m.amount.toDecimal.div d)
  return ⟨← Amount.round quotient, m.currency⟩

/-! ## Comparison -/

def equals (a b : Money) : Except Failure Bool := do
  requireSame .compare a b
  return a.amount.signedCents == b.amount.signedCents

def isGreaterThan (a b : Money) : Except Failure Bool := do
  requireSame .compare a b
  return b.amount.signedCents < a.amount.signedCents

def isLessThan (a b : Money) : Except Failure Bool := do
  requireSame .compare a b
  return a.amount.signedCents < b.amount.signedCents

/-- Equality by value that compares money of any currencies. -/
def same (a b : Money) : Bool :=
  a.currency == b.currency && a.amount.signedCents == b.amount.signedCents

end Money

end Billing
