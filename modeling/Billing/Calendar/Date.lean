import Billing.Decimal.Digits
import Billing.Text.Layout

set_option autoImplicit false

/-! # Calendar dates

A `Date` is a day of the Gregorian calendar in the years 1 to 9999. Days are numbered from
1 January of the year 1, which has `Date.ordinal` 1; `Date.ofOrdinal?` goes back. Dates are written
as `YYYY-MM-DD` and read in that form, without the hyphens, or as a day of an ISO week.
-/

namespace Billing

/-! ## The calendar -/

namespace Calendar

def isLeap (year : Nat) : Bool := year % 4 = 0 && (year % 100 ≠ 0 || year % 400 = 0)

/-- The number of days in a month; none outside January to December. -/
def daysInMonth (year month : Nat) : Nat :=
  match month with
  | 1 | 3 | 5 | 7 | 8 | 10 | 12 => 31
  | 4 | 6 | 9 | 11 => 30
  | 2 => if isLeap year then 29 else 28
  | _ => 0

/-- The number of days before the first day of a year, counted from the year 1. -/
def daysBeforeYear (year : Nat) : Nat :=
  let y := year - 1
  y * 365 + y / 4 - y / 100 + y / 400

/-- The number of days before the first day of a month in its year. -/
def daysBeforeMonth (year : Nat) : Nat → Nat
  | 0 => 0
  | month + 1 => daysBeforeMonth year month + daysInMonth year month

/-- Whether a year, month and day name a day of the calendar. -/
def isDay (year month day : Nat) : Bool :=
  1 ≤ year && year ≤ 9999 && 1 ≤ day && day ≤ daysInMonth year month

end Calendar

/-- A day of the calendar. -/
structure Date where
  year : Nat
  month : Nat
  day : Nat
  isDay : Calendar.isDay year month day = true
  deriving DecidableEq, Repr

namespace Date

open Calendar

/-- The date of a year, month and day, if there is such a day. -/
def of? (year month day : Nat) : Option Date :=
  if h : Calendar.isDay year month day = true then some ⟨year, month, day, h⟩ else none

/-- The number of the day, counted from 1 January of the year 1. -/
def ordinal (d : Date) : Nat := daysBeforeYear d.year + daysBeforeMonth d.year d.month + d.day

def lt (a b : Date) : Bool := a.ordinal < b.ordinal

def le (a b : Date) : Bool := a.ordinal ≤ b.ordinal

/-- The month and day of the `n`-th day of a year, starting the search with the given month. -/
def inYear? (year : Nat) : List Nat → Nat → Option Date
  | [], _ => none
  | month :: months, n =>
      if n ≤ daysInMonth year month then of? year month n
      else inYear? year months (n - daysInMonth year month)

/-- The number of the last day of the calendar, 31 December 9999. -/
def lastOrdinal : Nat := 3652059

/-- The date with the given number, if it lies in the years 1 to 9999. -/
def ofOrdinal? (n : Nat) : Option Date :=
  if lastOrdinal < n then none
  else
    let guess := n / 366 + 1
    let years := List.range' guess (n / 365 + 2 - guess)
    match years.find? fun y => daysBeforeYear y < n && n ≤ daysBeforeYear (y + 1) with
    | some year => inYear? year [1, 2, 3, 4, 5, 6, 7, 8, 9, 10, 11, 12] (n - daysBeforeYear year)
    | none => none

/-! ## Text -/

/-- The date as `YYYY-MM-DD`. -/
def chars (d : Date) : List Char :=
  Text.zeroFill 4 (Digits.chars d.year) ++ '-' :: Text.zeroFill 2 (Digits.chars d.month) ++
    '-' :: Text.zeroFill 2 (Digits.chars d.day)

def text (d : Date) : String := String.ofList d.chars

/-- Reads exactly `n` of the digits `0` to `9` off the front of a text. -/
def takeDigits? : Nat → List Char → Option (List Nat × List Char)
  | 0, cs => some ([], cs)
  | _ + 1, [] => none
  | n + 1, c :: cs => do
      let d ← Text.asciiDigit? c
      let (ds, rest) ← takeDigits? n cs
      return (d :: ds, rest)

/-- Reads a number of exactly `n` digits off the front of a text. -/
def takeNumber? (n : Nat) (cs : List Char) : Option (Nat × List Char) :=
  (takeDigits? n cs).map fun found => (Digits.toNat found.1, found.2)

/-- Reads a date written `YYYY-MM-DD` off the front of a text. -/
def read? (cs : List Char) : Option (Date × List Char) := do
  let (year, cs) ← takeNumber? 4 cs
  let '-' :: cs := cs | none
  let (month, cs) ← takeNumber? 2 cs
  let '-' :: cs := cs | none
  let (day, cs) ← takeNumber? 2 cs
  let date ← of? year month day
  return (date, cs)

/-- The number of the Monday that begins the first ISO week of a year: the week that holds the
year's first Thursday. -/
def firstMonday (year : Nat) : Nat :=
  let first := daysBeforeYear year + 1
  let weekday := (first + 6) % 7
  if weekday > 3 then first - weekday + 7 else first - weekday

/-- The number of ISO weeks in a year. -/
def weeksInYear (year : Nat) : Nat := (firstMonday (year + 1) - firstMonday year) / 7

/-- The date of a weekday (Monday is 1) in an ISO week. -/
def ofWeek? (year week weekday : Nat) : Option Date :=
  if 1 ≤ year ∧ 1 ≤ week ∧ week ≤ weeksInYear year ∧ 1 ≤ weekday ∧ weekday ≤ 7 then
    ofOrdinal? (firstMonday year + (week - 1) * 7 + (weekday - 1))
  else none

/-- Reads the week and weekday that follow `W`. Without a weekday it is Monday. -/
def readWeek? (hyphens : Bool) (year : Nat) (cs : List Char) : Option Date := do
  let (week, cs) ← takeNumber? 2 cs
  match hyphens, cs with
  | _, [] => ofWeek? year week 1
  | true, '-' :: cs =>
      let (weekday, _) ← takeNumber? 1 cs
      ofWeek? year week weekday
  | true, _ => none
  | false, cs =>
      let (weekday, _) ← takeNumber? 1 cs
      ofWeek? year week weekday

/-- Reads a date in one of the ISO forms `YYYY-MM-DD`, `YYYYMMDD`, `YYYY-Www`, `YYYYWww`,
`YYYY-Www-D` and `YYYYWwwD`. A text must have the length of such a form, 7, 8 or 10 bytes; what
follows a shorter form in a text of that length is not looked at. -/
def ofIso? (s : String) : Option Date := do
  if s.utf8ByteSize ≠ 7 ∧ s.utf8ByteSize ≠ 8 ∧ s.utf8ByteSize ≠ 10 then none
  let (year, cs) ← takeNumber? 4 s.toList
  match cs with
  | '-' :: 'W' :: cs => readWeek? true year cs
  | 'W' :: cs => readWeek? false year cs
  | '-' :: cs =>
      let (month, cs) ← takeNumber? 2 cs
      let '-' :: cs := cs | none
      let (day, _) ← takeNumber? 2 cs
      of? year month day
  | cs =>
      let (month, cs) ← takeNumber? 2 cs
      let (day, _) ← takeNumber? 2 cs
      of? year month day

end Date

end Billing
