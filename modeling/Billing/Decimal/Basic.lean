import Billing.Decimal.Digits
import Billing.Decimal.Power

set_option autoImplicit false

/-! # Decimal numbers

A `Decimal` is a sign, a coefficient and an exponent of ten. Numbers of equal value may differ in
their trailing zeros (`1.5` and `1.50`), and zero has a sign; `Decimal.cmp` compares by value. A
`Numeral` is what a number text can stand for: a decimal, an infinity or "not a number".
-/

namespace Billing

/-- The number `±coefficient · 10 ^ exponent`. The sign of zero and the trailing zeros of the
coefficient are part of the number, though not of its value. -/
structure Decimal where
  negative : Bool
  coefficient : Nat
  exponent : Int
  deriving DecidableEq, Repr

/-- A decimal, an infinity, or "not a number" with its diagnostic digits. -/
inductive Numeral where
  | finite (d : Decimal)
  | infinite (negative : Bool)
  | notANumber (negative signaling : Bool) (payload : Option Nat)
  deriving DecidableEq, Repr

namespace Decimal

/-- The decimal of an integer. -/
def ofInt (n : Int) : Decimal := ⟨n < 0, n.natAbs, 0⟩

def zero : Decimal := ⟨false, 0, 0⟩

def hundred : Decimal := ⟨false, 100, 0⟩

def isZero (d : Decimal) : Bool := d.coefficient = 0

/-- A decimal is positive when its value is: zero is not, whatever its sign. -/
def isPositive (d : Decimal) : Bool := !d.negative && !d.isZero

/-- A decimal is negative when its value is: zero is not, whatever its sign. -/
def isNegative (d : Decimal) : Bool := d.negative && !d.isZero

/-- The number of digits of the coefficient. -/
def digits (d : Decimal) : Nat := Digits.count d.coefficient

/-- The exponent of the leading digit. -/
def adjusted (d : Decimal) : Int := d.exponent + d.digits - 1

def neg (d : Decimal) : Decimal := { d with negative := !d.negative }

/-- The coefficient with the exponent lowered to `e`, which must not be above the exponent. -/
def coefficientAt (d : Decimal) (e : Int) : Nat := d.coefficient * tenTo (d.exponent - e).toNat

/-! ## Order by value -/

/-- Compares two decimals without their signs. Decimals of different size differ in the exponent
of the leading digit, so only decimals of one size are brought to one exponent. -/
def cmpMagnitude (a b : Decimal) : Ordering :=
  if a.isZero || b.isZero then compare a.coefficient b.coefficient
  else
    match compare a.adjusted b.adjusted with
    | .eq =>
        let e := min a.exponent b.exponent
        compare (a.coefficientAt e) (b.coefficientAt e)
    | order => order

/-- Compares two decimals by value. -/
def cmp (a b : Decimal) : Ordering :=
  match a.isNegative, b.isNegative with
  | false, false => cmpMagnitude a b
  | true, true => cmpMagnitude b a
  | true, false => .lt
  | false, true => .gt

/-- Equality of values: `1.5` and `1.50` are the same. -/
def same (a b : Decimal) : Bool := cmp a b == .eq

def lt (a b : Decimal) : Bool := cmp a b == .lt

def le (a b : Decimal) : Bool := cmp a b != .gt

end Decimal

end Billing
