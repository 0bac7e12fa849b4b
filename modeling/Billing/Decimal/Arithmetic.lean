import Billing.Decimal.Rounding

set_option autoImplicit false

/-! # Arithmetic on decimals

Sum, product and quotient of two decimals: the exact result, rounded once to the working precision
(`Decimal.round`). `Decimal.normalize` removes trailing zeros. Each can overflow.
-/

namespace Billing.Decimal

/-- The coefficient at the exponent `e`, with the sign. -/
def signedAt (d : Decimal) (e : Int) : Int :=
  if d.negative then -(d.coefficientAt e : Int) else d.coefficientAt e

/-- The sum. A sum of zero is positive unless both summands are negative. -/
def add (a b : Decimal) : Except Signal Decimal :=
  let e := min a.exponent b.exponent
  let sum := a.signedAt e + b.signedAt e
  let negative := if sum = 0 then a.negative && b.negative else decide (sum < 0)
  round negative sum.natAbs 1 e

/-- The difference. -/
def sub (a b : Decimal) : Except Signal Decimal := add a b.neg

/-- The product. -/
def mul (a b : Decimal) : Except Signal Decimal :=
  round (a.negative != b.negative) (a.coefficient * b.coefficient) 1 (a.exponent + b.exponent)

/-- The quotient. Dividing by zero has no answer. -/
def div (a b : Decimal) : Except Signal Decimal :=
  if b.isZero then .error .invalidOperation
  else round (a.negative != b.negative) a.coefficient b.coefficient (a.exponent - b.exponent)

/-- The decimal in working precision and without trailing zeros; zero gets the exponent 0. -/
def normalize (d : Decimal) : Except Signal Decimal := do
  let r ← round d.negative d.coefficient 1 d.exponent
  if r.isZero then return ⟨r.negative, 0, 0⟩
  let trimmed := dropZeros (min r.digits (maxExponent - r.exponent).toNat) r.coefficient
  return ⟨r.negative, trimmed.1, r.exponent + trimmed.2⟩

end Billing.Decimal
