import Billing.Calendar.Date
import Billing.Decimal.Text

set_option autoImplicit false

/-! # Moments

A `Moment` is a date, a time of day in microseconds and an optional offset from universal time. A
moment without an offset is a wall clock reading that belongs to no time zone. Moments are written
in two ways: `Moment.text` shows every part of the offset, and `Moment.stamp` writes offset zero as
`Z` and all others to the minute.
-/

namespace Billing

/-- The number of microseconds in a day. -/
def microsPerDay : Nat := 86400000000

theorem microsPerDay_pos : 0 < microsPerDay := by decide

/-- A date and a time of day, with the offset of its clock from universal time if that is known.
Both the time of day and the offset are in microseconds. -/
structure Moment where
  date : Date
  clock : Nat
  offset : Option Int
  clock_lt : clock < microsPerDay
  offset_lt : ∀ o ∈ offset, o.natAbs < microsPerDay
  deriving DecidableEq, Repr

namespace Moment

/-- The moment with the given parts, if the time of day and the offset are within a day. -/
def of? (date : Date) (clock : Nat) (offset : Option Int) : Option Moment :=
  if h : clock < microsPerDay ∧ ∀ o ∈ offset, o.natAbs < microsPerDay then
    some ⟨date, clock, offset, h.1, h.2⟩
  else none

/-- Midnight at the beginning of a date. -/
def midnight (date : Date) : Moment :=
  ⟨date, 0, none, microsPerDay_pos, by simp⟩

/-- The same date and time of day without an offset. -/
def wallClock (m : Moment) : Moment := { m with offset := none, offset_lt := by simp }

/-- The same date and time of day, read off a clock that shows universal time. -/
def atUniversal (m : Moment) : Moment :=
  { m with offset := some 0, offset_lt := by simp [microsPerDay] }

/-- The position on the time line in microseconds. Moments without an offset are placed as if
their clock showed universal time, and are comparable only with each other. -/
def instant (m : Moment) : Int :=
  (m.date.ordinal * microsPerDay + m.clock : Nat) - m.offset.getD 0

/-! ## Writing -/

def twoDigits (n : Nat) : List Char := Text.zeroFill 2 (Digits.chars n)

/-- A point and six digits, unless there are no microseconds. -/
def fractionChars (micros : Nat) : List Char :=
  if micros = 0 then [] else '.' :: Text.zeroFill 6 (Digits.chars micros)

/-- Hours, minutes, seconds, and the fraction of a second if there is one. -/
def clockChars (clock : Nat) : List Char :=
  let seconds := clock / 1000000
  twoDigits (seconds / 3600) ++ ':' :: twoDigits (seconds / 60 % 60) ++
    ':' :: twoDigits (seconds % 60) ++ fractionChars (clock % 1000000)

/-- The hours and minutes of an offset with its sign. -/
def offsetMinutes (o : Int) : List Char :=
  let minutes := o.natAbs / 60000000
  (if o < 0 then '-' else '+') :: twoDigits (minutes / 60) ++ ':' :: twoDigits (minutes % 60)

/-- The part of an offset that is smaller than a minute, unless there is none. -/
def offsetRest (o : Int) : List Char :=
  let micros := o.natAbs % 60000000
  if micros = 0 then []
  else ':' :: twoDigits (micros / 1000000) ++ fractionChars (micros % 1000000)

/-- The moment in full: date, `T`, time of day, and all of the offset if there is one. -/
def text (m : Moment) : String :=
  String.ofList (m.date.chars ++ 'T' :: clockChars m.clock ++
    match m.offset with
    | some o => offsetMinutes o ++ offsetRest o
    | none => [])

/-- The offset in a stamp: `Z` for less than a second, otherwise hours and minutes. -/
def stampOffset (o : Int) : List Char :=
  if o.natAbs < 1000000 then ['Z'] else offsetMinutes o

/-- The moment as a stamp: date, `T`, time of day, and the offset to the minute, where zero is
written `Z`. -/
def stampChars (m : Moment) : List Char :=
  m.date.chars ++ 'T' :: clockChars m.clock ++
    match m.offset with
    | some o => stampOffset o
    | none => []

def stamp (m : Moment) : String := String.ofList m.stampChars

/-! ## Reading -/

/-- Reads the digits of a fraction of a second; digits after the sixth are not looked at. -/
def fractionOf (ds : List Nat) : Nat :=
  Digits.toNat (ds.take 6 ++ List.replicate (6 - ds.length) 0)

/-- The digits `0` to `9` at the front of a text, and the rest. -/
def asciiDigits : List Char → List Nat × List Char
  | [] => ([], [])
  | c :: cs =>
      match Text.asciiDigit? c with
      | some d =>
          let rest := asciiDigits cs
          (d :: rest.1, rest.2)
      | none => ([], c :: cs)

/-- Reads an optional fraction, which begins with a point or a comma, as microseconds. -/
def readFraction? : List Char → Option (Nat × List Char)
  | c :: cs =>
      if c = '.' ∨ c = ',' then
        match asciiDigits cs with
        | ([], _) => none
        | (ds, rest) => some (fractionOf ds, rest)
      else some (0, c :: cs)
  | [] => some (0, [])

/-- Reads a time of day as microseconds: hours and minutes, then seconds and a fraction of a
second if they are there. -/
def readClock? (cs : List Char) : Option (Nat × List Char) := do
  let (hour, cs) ← Date.takeNumber? 2 cs
  let ':' :: cs := cs | none
  let (minute, cs) ← Date.takeNumber? 2 cs
  if 23 < hour ∨ 59 < minute then none
  let minutes := hour * 60 + minute
  match cs with
  | ':' :: cs =>
      let (second, cs) ← Date.takeNumber? 2 cs
      if 59 < second then none
      let (micros, cs) ← readFraction? cs
      return ((minutes * 60 + second) * 1000000 + micros, cs)
  | cs => return (minutes * 60000000, cs)

/-- Reads the sign of an offset: plus, minus, or the minus sign `U+2212`. -/
def readOffsetSign? : List Char → Option (Bool × List Char)
  | '+' :: cs => some (false, cs)
  | '-' :: cs => some (true, cs)
  | '\u2212' :: cs => some (true, cs)
  | _ => none

/-- Reads the offset of a stamp up to its end: nothing, `Z`, or hours and minutes. -/
def readStampOffset? : List Char → Option (Option Int)
  | [] => some none
  | ['Z'] => some (some 0)
  | ['z'] => some (some 0)
  | cs => do
      let (negative, cs) ← readOffsetSign? cs
      let (hour, cs) ← Date.takeNumber? 2 cs
      let cs := match cs with
        | ':' :: rest => rest
        | rest => rest
      let (minute, rest) ← Date.takeNumber? 2 cs
      if 59 < minute ∨ rest ≠ [] then none
      let size : Int := ((hour * 60 + minute) * 60000000 : Nat)
      return some (if negative then -size else size)

/-- Reads a stamp: a date, one of the separators `T`, `t`, `_` and blank, a time of day, and an
offset if there is one. -/
def ofStamp? (cs : List Char) : Option Moment := do
  let (date, cs) ← Date.read? cs
  let separator :: cs := cs | none
  if separator ≠ 'T' ∧ separator ≠ 't' ∧ separator ≠ ' ' ∧ separator ≠ '_' then none
  let (clock, cs) ← readClock? cs
  let offset ← readStampOffset? cs
  of? date clock offset

/-- Reads the offset of a moment in full up to its end: nothing, `Z`, or hours and minutes,
followed by seconds and their fraction if they are there. -/
def readOffset? : List Char → Option (Option Int)
  | [] => some none
  | ['Z'] => some (some 0)
  | cs => do
      let (negative, cs) ← readOffsetSign? cs
      let (size, rest) ← readClock? cs
      if rest ≠ [] then none
      return some (if negative then -(size : Int) else size)

/-- Reads a moment in full; a date alone is its midnight. -/
def ofText? (s : String) : Option Moment := do
  let (date, cs) ← Date.read? s.toList
  match cs with
  | [] => return midnight date
  | _ :: cs =>
      let (clock, cs) ← readClock? cs
      let offset ← readOffset? cs
      of? date clock offset

/-- The moment that lies a number of microseconds after the beginning of the year 1970, by a clock
that shows universal time. -/
def ofUnix? (micros : Int) : Option Moment := do
  let day := micros.fdiv microsPerDay + 719163
  let date ← Date.ofOrdinal? day.toNat
  of? date (micros.fmod microsPerDay).toNat (some 0)

end Moment

end Billing
