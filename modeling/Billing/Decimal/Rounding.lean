import Billing.Decimal.Basic

set_option autoImplicit false

/-! # Rounding to a decimal grid

`divRound` is the whole number nearest to a quotient, with ties decided by a `Tie` rule, and
`scaleRound` is the same for a quotient times a power of ten. On them rests `Decimal.round`, which
brings an exact quotient into the range and precision that arithmetic works in: 28 digits, ties to
even, exponents of the leading digit from -999999 to 999999.
-/

namespace Billing

/-- Where a number half way between two whole numbers goes. -/
inductive Tie where
  /-- to the even neighbour -/
  | toEven
  /-- to the neighbour of larger size -/
  | awayFromZero
  deriving DecidableEq, Repr

/-- The whole number nearest to `num / den`. -/
def divRound (tie : Tie) (num den : Nat) : Nat :=
  let q := num / den
  let r := num % den
  if 2 * r < den then q
  else if den < 2 * r then q + 1
  else match tie with
    | .toEven => if q % 2 = 0 then q else q + 1
    | .awayFromZero => q + 1

/-- The whole number nearest to `num / den · 10 ^ shift`. A numerator with no more digits than are
cut off is less than a tenth, so it rounds to zero and the power of ten is not computed. -/
def scaleRound (tie : Tie) (num den : Nat) : Int → Nat
  | .ofNat k => divRound tie (num * tenTo k) den
  | .negSucc k =>
      if Digits.count num ≤ k then 0 else divRound tie num (den * tenTo (k + 1))

namespace Decimal

/-! ## The working precision -/

/-- The number of digits a result of arithmetic may have. -/
def precision : Nat := 28

/-- The largest exponent of the leading digit of a result. -/
def maxExponent : Int := 999999

/-- The smallest exponent of the leading digit of a result in full precision. -/
def minExponent : Int := -999999

/-- The smallest exponent of a result. -/
def tinyExponent : Int := minExponent - (precision - 1)

/-- The two ways in which an operation on decimals can fail. -/
inductive Signal where
  /-- the result is too large for the exponent range -/
  | overflow
  /-- the operation has no answer, such as reading a text that is no number -/
  | invalidOperation
  deriving DecidableEq, Repr

/-- Removes trailing zeros from a coefficient, at most `n` of them; also says how many. -/
def dropZeros : Nat → Nat → Nat × Nat
  | 0, c => (c, 0)
  | n + 1, c =>
      if c % 10 = 0 then
        let rest := dropZeros n (c / 10)
        (rest.1, rest.2 + 1)
      else (c, 0)

/-- The exponent of the leading digit of `num / den`, for `num` and `den` other than zero. -/
def leadingExponent (num den : Nat) : Int :=
  let k : Int := (Digits.count num : Int) - Digits.count den
  if den * tenTo k.toNat ≤ num * tenTo (-k).toNat then k else k - 1

/-- Brings the exact number `±num / den · 10 ^ ideal` into the working precision and range,
rounding half to even once. A result that is exact keeps the exponent `ideal` as far as the
precision allows; a result beyond the range is an overflow, and one below it goes to zero. -/
def round (negative : Bool) (num den : Nat) (ideal : Int) : Except Signal Decimal :=
  if num = 0 then
    .ok ⟨negative, 0, max tinyExponent (min maxExponent ideal)⟩
  else
    let lead := leadingExponent num den + ideal
    let e := max (lead - (precision - 1)) tinyExponent
    let c := scaleRound .toEven num den (ideal - e)
    let rounded := if c = tenTo precision then (tenTo (precision - 1), e + 1) else (c, e)
    let exact := e < ideal && num * tenTo (ideal - e).toNat == c * den
    let trimmed := dropZeros (if exact then (ideal - rounded.2).toNat else 0) rounded.1
    let result : Decimal := ⟨negative, trimmed.1, rounded.2 + trimmed.2⟩
    if maxExponent < result.adjusted then .error .overflow else .ok result

end Decimal

end Billing
