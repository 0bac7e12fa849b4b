import Billing.Decimal.Text

set_option autoImplicit false

/-! # Binary floating-point numbers

A `Binary64` is a double-precision number in exact form, `±mantissa · 2 ^ exponent`. A decimal is
rounded to the nearest of them (`Binary64.ofDecimal`), and one is written with the fewest digits
that read back as the same number (`Binary64.text`). All of it is integer arithmetic.
-/

namespace Billing

/-- A double-precision number: 53 bits of mantissa, exponents from -1074 to 971. -/
inductive Binary64 where
  | finite (negative : Bool) (mantissa : Nat) (exponent : Int)
  | infinite (negative : Bool)
  | notANumber
  deriving DecidableEq, Repr

namespace Binary64

/-- The least exponent, and the only one at which the mantissa may have fewer than 53 bits. -/
def minExponent : Int := -1074

/-- The largest exponent. -/
def maxExponent : Int := 971

/-- The quotient `num / den · 2 ^ shift`, rounded to a whole number, ties to even. -/
def shiftRound (num den : Nat) (shift : Int) : Nat :=
  divRound .toEven (num * twoTo shift.toNat) (den * twoTo (-shift).toNat)

/-- The double-precision number nearest to `±num / den`, for `num` and `den` other than zero. -/
def nearest (negative : Bool) (num den : Nat) : Binary64 :=
  let k : Int := (num.log2 : Int) - den.log2
  let lead := if den * twoTo k.toNat ≤ num * twoTo (-k).toNat then k else k - 1
  let e := max (lead - 52) minExponent
  let m := shiftRound num den (-e)
  let (m, e) := if m = twoTo 53 then (twoTo 52, e + 1) else (m, e)
  if maxExponent < e then infinite negative else finite negative m e

/-- The double-precision number nearest to a decimal. Decimals of 311 and more digits before the
point are infinite, and those below `10 ^ -330` are zero. -/
def ofDecimal (d : Decimal) : Binary64 :=
  if d.isZero || d.adjusted < -330 then finite d.negative 0 minExponent
  else if 310 < d.adjusted then infinite d.negative
  else nearest d.negative (d.coefficient * tenTo d.exponent.toNat) (tenTo (-d.exponent).toNat)

/-- The double-precision number that a numeral stands for. -/
def ofNumeral : Numeral → Binary64
  | .finite d => ofDecimal d
  | .infinite negative => infinite negative
  | .notANumber _ _ _ => notANumber

/-- The double-precision number nearest to a quotient. -/
def ofQuotient (num den : Nat) : Binary64 :=
  if num = 0 then finite false 0 minExponent else nearest false num den

/-- Whether a whole number is within the range of double-precision numbers. -/
def holds (n : Int) : Bool :=
  match ofDecimal (Decimal.ofInt n) with
  | finite _ _ _ => true
  | _ => false

/-! ## Arithmetic -/

/-- A finite number as an exact quotient. -/
def quotient? : Binary64 → Option (Int × Nat)
  | finite negative m e =>
      let num : Int := (m * twoTo e.toNat : Nat)
      some (if negative then -num else num, twoTo (-e).toNat)
  | _ => none

/-- The double-precision number nearest to a multiple. -/
def scale (k : Nat) : Binary64 → Binary64
  | finite negative m e =>
      if m = 0 ∨ k = 0 then finite negative 0 minExponent
      else nearest negative (k * m * twoTo e.toNat) (twoTo (-e).toNat)
  | x => x

/-- The whole number nearest to the size of a number, halves upwards. -/
def toNatRounded : Binary64 → Nat
  | finite _ m e => divRound .awayFromZero (m * twoTo e.toNat) (twoTo (-e).toNat)
  | _ => 0

/-! ## The shortest text -/

/-- Compares `a · 10 ^ g` with `b · 2 ^ e`. -/
def cmpScaled (a : Nat) (g : Int) (b : Nat) (e : Int) : Ordering :=
  compare (a * tenTo g.toNat * twoTo (-e).toNat) (b * twoTo e.toNat * tenTo (-g).toNat)

/-- Whether `c · 10 ^ g` is read as the number `m · 2 ^ e`: it lies between the midpoints to the
two neighbours, or on one of them when `m` is even. The lower neighbour of a power of two is only
half as far away. -/
def readsAs (m : Nat) (e : Int) (c : Nat) (g : Int) : Bool :=
  let below := if m = twoTo 52 ∧ minExponent < e then 4 * m - 1 else 4 * m - 2
  let above := 4 * m + 2
  match cmpScaled c g below (e - 2), cmpScaled c g above (e - 2) with
  | .gt, .lt => true
  | .eq, _ => m % 2 = 0
  | _, .eq => m % 2 = 0
  | _, _ => false

/-- The multiple of `10 ^ g` that is read as `m · 2 ^ e`, if there is one: the nearest one, or else
the one on the other side. -/
def onGrid? (m : Nat) (e g : Int) : Option Nat :=
  let num := m * twoTo e.toNat * tenTo (-g).toNat
  let den := twoTo (-e).toNat * tenTo g.toNat
  let c := divRound .toEven num den
  let other := if c * den ≤ num then c + 1 else c - 1
  if readsAs m e c g then some c else if readsAs m e other g then some other else none

/-- Tries the decimal grids from coarse to fine, starting with the unit `10 ^ g`. -/
def shortestFrom (m : Nat) (e : Int) : Nat → Int → Decimal
  | 0, _ => Decimal.zero
  | n + 1, g =>
      match onGrid? m e g with
      | some c => ⟨false, c, g⟩
      | none => shortestFrom m e n (g - 1)

/-- The decimal with the fewest digits that is read as `m · 2 ^ e`, without trailing zeros. -/
def shortest (m : Nat) (e : Int) : Decimal :=
  let lead := Decimal.leadingExponent (m * twoTo e.toNat) (twoTo (-e).toNat)
  let d := shortestFrom m e 17 lead
  let trimmed := Decimal.dropZeros d.digits d.coefficient
  ⟨false, trimmed.1, d.exponent + trimmed.2⟩

/-- The exponent of a number as written: a sign and at least two digits. -/
def exponentText (e : Int) : List Char :=
  (if e < 0 then '-' else '+') :: Text.zeroFill 2 (Digits.chars e.natAbs)

/-- A decimal in the notation of binary numbers: with a point and at least one digit on either
side of it when the leading digit has an exponent from -4 to 15, otherwise with an exponent. -/
def decimalChars (d : Decimal) : List Char :=
  let ds := Digits.chars d.coefficient
  if -4 ≤ d.adjusted ∧ d.adjusted < 16 then
    if 0 ≤ d.exponent then ds ++ List.replicate d.exponent.toNat '0' ++ ['.', '0']
    else Decimal.withPoint d.exponent.natAbs ds
  else
    ds.take 1 ++ (if ds.length = 1 then [] else '.' :: ds.drop 1) ++ 'e' :: exponentText d.adjusted

/-- A double-precision number as text: the fewest digits that read back as the same number. -/
def text : Binary64 → String
  | finite negative 0 _ => String.ofList (Decimal.signChars negative ++ ['0', '.', '0'])
  | finite negative m e =>
      String.ofList (Decimal.signChars negative ++ decimalChars (shortest m e))
  | infinite negative => String.ofList (Decimal.signChars negative ++ ['i', 'n', 'f'])
  | notANumber => "nan"

/-- The numeral of the shortest text. -/
def numeral (x : Binary64) : Numeral :=
  match Numeral.ofText? x.text with
  | some n => n
  | none => .notANumber false false none

/-- The whole number that a double-precision number is, if it is one. -/
def toInt? (x : Binary64) : Option Int :=
  match x.quotient? with
  | some (num, den) => if num % den = 0 then some (num / den) else none
  | none => none

end Binary64

end Billing
