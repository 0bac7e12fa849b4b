import Billing.Binary64
import Billing.Calendar.Moment

set_option autoImplicit false

/-! # Points of time as they are given

A point of time can be given as a stamp, as a date alone, or as a count since the beginning of
1970. All of them reach back to the year 0, one year further than the calendar. Such a point is
understood, but it is no moment: a `TimePoint` is a moment or a time of day in the year 0.

A count is one of seconds up to twenty thousand million (`secondsLimit`), and one of milliseconds
beyond that. A count with a fraction is a double-precision number.
-/

namespace Billing

/-- A point of time as it is given: a moment, or a time of day in the year 0, which is not in the
calendar. -/
inductive TimePoint where
  | inCalendar (m : Moment)
  | yearZero (clock : Nat)
  deriving DecidableEq, Repr

namespace TimePoint

/-! ## Stamps and dates -/

/-- A text that begins in the year 0, with the year 400 in its place. The two years have the same
days, because the calendar repeats itself every 400 years. -/
def fromYearZero? : List Char → Option (List Char)
  | '0' :: '0' :: '0' :: '0' :: cs => some ('0' :: '4' :: '0' :: '0' :: cs)
  | _ => none

/-- Reads a point of time from a text, given how to read a moment. -/
def ofChars? (read : List Char → Option Moment) (cs : List Char) : Option TimePoint :=
  match fromYearZero? cs with
  | some shifted => (read shifted).map fun m => yearZero m.clock
  | none => (read cs).map inCalendar

/-- Reads a stamp. -/
def ofStamp? (cs : List Char) : Option TimePoint := ofChars? Moment.ofStamp? cs

/-- Reads a date alone, which is its midnight. -/
def ofDate? (cs : List Char) : Option TimePoint :=
  ofChars?
    (fun cs =>
      match Date.read? cs with
      | some (d, []) => some (.midnight d)
      | _ => none)
    cs

/-! ## Counts -/

/-- The point that lies a number of microseconds after the beginning of 1970, by a clock that
shows universal time. -/
def ofUnix? (micros : Int) : Option TimePoint :=
  let day := micros.fdiv microsPerDay + 719163
  if day < -365 then none
  else if day ≤ 0 then some (yearZero (micros.fmod microsPerDay).toNat)
  else (Moment.ofUnix? micros).map inCalendar

/-- The largest count that is one of seconds. -/
def secondsLimit : Nat := 20000000000

/-- The point that a count stands for. -/
def ofCount? (n : Int) : Option TimePoint :=
  if n.natAbs ≤ secondsLimit then ofUnix? (n * 1000000) else ofUnix? (n * 1000)

/-- The microseconds in `num / den` seconds: those of the whole seconds below, and a million times
the fraction that is left. The fraction and its product are double-precision numbers; the product
is then rounded, halves upwards. -/
def microsOfSeconds (num : Int) (den : Nat) : Int :=
  let fraction := Binary64.ofQuotient (num.fmod den).toNat den
  num.fdiv den * 1000000 + (fraction.scale 1000000).toNatRounded

/-- The microseconds in `num / den` milliseconds, rounded, halves upwards. -/
def microsOfMillis (num : Int) (den : Nat) : Int := (2000 * num + den).fdiv (2 * den)

/-- The point that a count with a fraction stands for. -/
def ofReal? (x : Binary64) : Option TimePoint :=
  match x.quotient? with
  | some (num, den) =>
      if num.natAbs ≤ secondsLimit * den then ofUnix? (microsOfSeconds num den)
      else ofUnix? (microsOfMillis num den)
  | none => none

/-- Reads a count: a sign, digits, and perhaps a point with or without digits on either side of
it. A count with a point has a fraction, though it may be zero. -/
def ofDigits? (cs : List Char) : Option TimePoint :=
  let (negative, cs) := Decimal.signRun cs
  let (whole, cs) := Moment.asciiDigits cs
  match cs with
  | [] =>
      if whole.isEmpty then none
      else ofCount? (if negative then -(Digits.toNat whole : Int) else Digits.toNat whole)
  | '.' :: cs =>
      match Moment.asciiDigits cs with
      | (fraction, []) =>
          let ds := whole ++ fraction
          if ds.isEmpty then none
          else ofReal? (.ofDecimal ⟨negative, Digits.toNat ds, -(fraction.length : Int)⟩)
      | _ => none
  | _ => none

/-- Reads a point of time: a stamp or a count. -/
def ofText? (cs : List Char) : Option TimePoint := (ofStamp? cs).or (ofDigits? cs)

end TimePoint

end Billing
