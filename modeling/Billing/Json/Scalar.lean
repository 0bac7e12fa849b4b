import Billing.Calendar.TimePoint
import Billing.Json.Checked

set_option autoImplicit false

/-! # Reading numbers, dates and moments

The scalar parts of a JSON value that can be written in more than one way: integers may be texts,
dates may be midnights, and moments may be dates or counts of seconds since the beginning of 1970.
-/

namespace Billing.Json

/-! ## Integers -/

/-- Unicode white space. -/
def isWhiteSpace (c : Char) : Bool := Text.isBlank c && !(28 ≤ c.toNat && c.toNat ≤ 31)

/-- The text without the white space at either end. -/
def trimWhite (cs : List Char) : List Char :=
  ((cs.dropWhile isWhiteSpace).reverse.dropWhile isWhiteSpace).reverse

/-- The rest of a number behind zeros at its front, among which underscores may stand. The last of
them is given, and stays if nothing else would stand there or in front of a point. A sign may
follow the zeros. -/
def behindZeros? (last : Char) : List Char → Option (List Char)
  | [] => some [last]
  | c :: cs =>
      if c = '0' ∨ c = '_' then behindZeros? c cs
      else if c = '-' ∨ Text.isAsciiDigit c then some (c :: cs)
      else if c = '.' then some (last :: c :: cs)
      else none

/-- A number without the zeros at its front. It must begin with a digit or a minus sign, and zeros
behind a minus sign stay. -/
def dropZeros? : List Char → Option (List Char)
  | [] => none
  | c :: cs =>
      if c = '0' then behindZeros? c cs
      else if c = '-' ∨ Text.isAsciiDigit c then some (c :: cs)
      else none

/-- A number without a fraction that is written as zeros. -/
def dropZeroFraction (cs : List Char) : List Char :=
  match cs.dropWhile (· ≠ '.') with
  | _ :: d :: ds => if (d :: ds).all (· = '0') then cs.takeWhile (· ≠ '.') else cs
  | _ => cs

/-- Whether every underscore stands alone between two other characters; the first argument says
that another character stands in front. -/
def singleUnderscores : Bool → List Char → Bool
  | inside, [] => inside
  | inside, c :: cs =>
      if c = '_' then inside && singleUnderscores false cs else singleUnderscores true cs

/-- A number without the underscores between its digits. -/
def dropUnderscores (cs : List Char) : List Char :=
  if singleUnderscores false cs then cs.filter (· ≠ '_') else cs

/-- The bare number in a text: without white space around it, a plus sign, zeros at its front, a
fraction of zeros, and underscores. -/
def bareInteger? (cs : List Char) : Option (List Char) :=
  let unsigned := match trimWhite cs with
    | '+' :: '-' :: _ => none
    | '+' :: cs => some cs
    | cs => some cs
  (unsigned.bind dropZeros?).map fun cs => dropUnderscores (dropZeroFraction cs)

/-- The sign and the digits of a number that is written with nothing else. -/
def signedDigits (cs : List Char) : Bool × List Char :=
  match cs with
  | '-' :: cs => (true, cs)
  | cs => (false, cs)

/-- Whether a text begins with a whole number that has too many characters. Numbers do not begin
with zeros. -/
def beginsTooLong (cs : List Char) : Bool :=
  let (negative, cs) := signedDigits cs
  cs.head? ≠ some '0' &&
    maxNumberLength < (cs.takeWhile Text.isAsciiDigit).length + (if negative then 1 else 0)

/-- Reads an integer from a text. -/
def integerOfText (s : String) : Checked Int :=
  if beginsTooLong s.toList then .defect .intTooLarge
  else
    match bareInteger? s.toList with
    | none => .defect .intParsing
    | some cs =>
        let (negative, digits) := signedDigits cs
        if beginsTooLong cs then .defect .intParsing
        else
          match digits.mapM Text.asciiDigit? with
          | some (d :: ds) =>
              let n : Int := Digits.toNat (d :: ds)
              .ok (if negative then -n else n)
          | _ => .defect .intParsing

/-- Reads an integer. -/
def integer : Json → Checked Int
  | int n => .ok n
  | long n => .ok n
  | bool b => .ok (if b then 1 else 0)
  | real x =>
      match x, x.toInt? with
      | .finite _ _ _, some n => if n.natAbs < twoTo 63 then .ok n else .defect .intTooLarge
      | .finite _ _ _, none => .defect .intFromFraction
      | _, _ => .defect .notFinite
  | str s => integerOfText s
  | _ => .defect .intType

/-- The truth value of 0 or 1. -/
def booleanOfInteger (n : Int) : Checked Bool :=
  if n = 0 then .ok false else if n = 1 then .ok true else .defect .boolParsing

/-- Reads a truth value: itself, 0 or 1, or one of the usual words in upper or lower case. -/
def boolean : Json → Checked Bool
  | bool b => .ok b
  | int n => if isWord n then booleanOfInteger n else .defect .boolType
  | real x =>
      match x.toInt? with
      | some n => if n.natAbs < twoTo 63 then booleanOfInteger n else .defect .boolType
      | none => .defect .boolType
  | str s =>
      let word := String.map Char.toLower s
      if ["0", "off", "f", "false", "n", "no"].contains word then .ok false
      else if ["1", "on", "t", "true", "y", "yes"].contains word then .ok true
      else .defect .boolParsing
  | _ => .defect .boolType

/-! ## Moments and dates -/

/-- The moment at a point of time. -/
def momentAt : TimePoint → Checked Moment
  | .inCalendar m => .ok m
  | .yearZero _ => .defect .momentOutside

/-- Reads a moment. A date alone is its midnight, and a number is a count. -/
def moment : Json → Checked Moment
  | str s =>
      match (TimePoint.ofText? s.toList).or (TimePoint.ofDate? s.toList) with
      | some point => momentAt point
      | none => .defect .momentParsing
  | int n =>
      match TimePoint.ofCount? n with
      | some point => momentAt point
      | none => .defect (if Binary64.holds n then .momentOutside else .momentType)
  | real x =>
      match TimePoint.ofReal? x with
      | some point => momentAt point
      | none => .defect .momentOutside
  | _ => .defect .momentType

/-- The date of a point of time, which must be at midnight. -/
def dateAt : TimePoint → Checked Date
  | .inCalendar m => if m.clock = 0 then .ok m.date else .defect .dateInexact
  | .yearZero clock => .defect (if clock = 0 then .dateOutside else .dateInexact)

/-- Reads a date. A moment at midnight is its date. -/
def date : Json → Checked Date
  | str s =>
      match (TimePoint.ofDate? s.toList).or (TimePoint.ofText? s.toList) with
      | some point => dateAt point
      | none => .defect .dateParsing
  | int n =>
      match TimePoint.ofCount? n with
      | some point => dateAt point
      | none => .defect (if Binary64.holds n then .dateParsing else .dateType)
  | real x =>
      match TimePoint.ofReal? x with
      | some point => dateAt point
      | none => .defect .dateParsing
  | _ => .defect .dateType

end Billing.Json
