import Billing.Decimal.Rounding
import Billing.Text.Blank
import Billing.Text.Layout

set_option autoImplicit false

/-! # Decimals as text

`Decimal.text` writes a decimal with all its trailing zeros, in plain notation where that is short
and with an exponent otherwise; `Numeral.ofText?` reads every such text back, and more: blanks
around the number, underscores, digits of any script, infinities and "not a number".
`Decimal.fixed` writes a rounded decimal with a fixed number of places.
-/

namespace Billing

namespace Decimal

/-! ## Writing -/

/-- An exponent with its sign. -/
def exponentText (e : Int) : List Char :=
  (if e < 0 then '-' else '+') :: Digits.chars e.natAbs

/-- The digits with a point before the last `places` of them, and with at least one digit before
the point. -/
def withPoint (places : Nat) (ds : List Char) : List Char :=
  let filled := Text.zeroFill (places + 1) ds
  if places = 0 then filled
  else filled.take (filled.length - places) ++ '.' :: filled.drop (filled.length - places)

/-- The sign of a decimal as written. -/
def signChars (negative : Bool) : List Char := if negative then ['-'] else []

/-- A decimal as characters. The notation is plain when the exponent is not positive and the
leading digit stands at most six places behind the point; otherwise one digit, the point, the
other digits and the exponent of the leading digit. -/
def chars (d : Decimal) : List Char :=
  let ds := Digits.chars d.coefficient
  signChars d.negative ++
    if d.exponent ≤ 0 ∧ -6 ≤ d.adjusted then withPoint d.exponent.natAbs ds
    else
      ds.take 1 ++ (if ds.length = 1 then [] else '.' :: ds.drop 1) ++
        'E' :: exponentText d.adjusted

/-- A decimal as text, with all its trailing zeros. -/
def text (d : Decimal) : String := String.ofList d.chars

/-- The decimal times `10 ^ places`, without its sign, rounded to a whole number. -/
def scaled (tie : Tie) (places : Nat) (d : Decimal) : Nat :=
  if d.isZero then 0 else scaleRound tie d.coefficient 1 (d.exponent + places)

/-- A decimal rounded to a fixed number of places, ties going to the even neighbour. -/
def fixed (places : Nat) (d : Decimal) : String :=
  String.ofList (signChars d.negative ++ withPoint places (Digits.chars (d.scaled .toEven places)))

/-! ## Reading -/

/-- The digits at the front of a text, of any script, and the rest. -/
def digitRun : List Char → List Nat × List Char
  | [] => ([], [])
  | c :: cs =>
      match Text.digitValue? c with
      | some d =>
          let rest := digitRun cs
          (d :: rest.1, rest.2)
      | none => ([], c :: cs)

/-- The sign at the front of a text, if there is one, and the rest. -/
def signRun : List Char → Bool × List Char
  | '-' :: cs => (true, cs)
  | '+' :: cs => (false, cs)
  | cs => (false, cs)

/-- The exponent that ends a number: nothing, or `e`, a sign and digits. -/
def readExponent? : List Char → Option Int
  | [] => some 0
  | c :: cs =>
      if c = 'e' ∨ c = 'E' then
        let (negative, cs) := signRun cs
        match digitRun cs with
        | ([], _) => none
        | (ds, []) => some (if negative then -(Digits.toNat ds : Int) else Digits.toNat ds)
        | _ => none
      else none

/-- The largest exponent of the leading digit that a text may have. -/
def maxReadable : Int := 999999999999999999

/-- The smallest exponent that a text may have. -/
def minReadable : Int := -1999999999999999997

/-- Whether a decimal lies in the range of exponents that can be read. -/
def readable (d : Decimal) : Bool := d.adjusted ≤ maxReadable && minReadable ≤ d.exponent

theorem readable_zero : zero.readable = true := by
  simp [readable, adjusted, digits, zero, Digits.count, maxReadable, minReadable]

/-- The fraction that follows the whole digits of a number: its digits, and the rest. -/
def fractionRun : List Char → List Nat × List Char
  | '.' :: cs => digitRun cs
  | cs => ([], cs)

/-- Reads the part of a number behind its sign. -/
def readUnsigned? (negative : Bool) (cs : List Char) : Option Decimal := do
  let (whole, cs) := digitRun cs
  let (fraction, cs) := fractionRun cs
  if whole.isEmpty && fraction.isEmpty then none
  else
    let e ← readExponent? cs
    let d : Decimal := ⟨negative, Digits.toNat (whole ++ fraction), e - fraction.length⟩
    if d.readable then some d else none

/-- Reads a number without blanks or underscores. -/
def read? (cs : List Char) : Option Decimal :=
  let (negative, cs) := signRun cs
  readUnsigned? negative cs

end Decimal

namespace Numeral

open Decimal

/-- A numeral as text. -/
def text : Numeral → String
  | finite d => d.text
  | infinite negative => String.ofList (signChars negative ++ "Infinity".toList)
  | notANumber negative signaling payload =>
      String.ofList (signChars negative ++ (if signaling then ['s'] else []) ++ "NaN".toList ++
        match payload with
        | some n => Digits.chars n
        | none => [])

/-- The diagnostic digits behind "not a number": none, or digits of which zero counts as none. -/
def payload? (cs : List Char) : Option (Option Nat) :=
  match digitRun cs with
  | (ds, []) => some (if Digits.toNat ds = 0 then none else some (Digits.toNat ds))
  | _ => none

/-- Reads the words for the numerals that are not finite, in upper or lower case. -/
def readWord? (negative : Bool) (cs : List Char) : Option Numeral :=
  match cs.map Char.toLower with
  | ['i', 'n', 'f'] => some (infinite negative)
  | ['i', 'n', 'f', 'i', 'n', 'i', 't', 'y'] => some (infinite negative)
  | 'n' :: 'a' :: 'n' :: cs => (payload? cs).map (notANumber negative false)
  | 's' :: 'n' :: 'a' :: 'n' :: cs => (payload? cs).map (notANumber negative true)
  | _ => none

/-- Reads a number text. Blanks around the number and underscores anywhere are skipped. -/
def ofText? (s : String) : Option Numeral :=
  let cs := (Text.trim s.toList).filter (· ≠ '_')
  match Decimal.read? cs with
  | some d => some (finite d)
  | none =>
      let (negative, cs) := signRun cs
      readWord? negative cs

end Numeral

end Billing
