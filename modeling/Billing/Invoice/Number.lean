import Billing.Given

set_option autoImplicit false

/-! # Invoice numbers

An invoice number is a series of two to four capital letters, a hyphen, and three to six digits:
`INV-001000`. New numbers take the next value of a `Counter`, written with six digits
(`InvoiceNumber.generate`).
-/

namespace Billing

def isCapital (c : Char) : Bool := 'A' ≤ c && c ≤ 'Z'

/-- Two to four capital letters. -/
def isSeries (cs : List Char) : Bool := 2 ≤ cs.length && cs.length ≤ 4 && cs.all isCapital

/-- Three to six digits. -/
def isSequence (cs : List Char) : Bool :=
  3 ≤ cs.length && cs.length ≤ 6 && cs.all Text.isAsciiDigit

/-- A series, a hyphen and a sequence. -/
def isInvoiceNumber (s : String) : Bool :=
  match s.toList.span (· ≠ '-') with
  | (series, _ :: sequence) => isSeries series && isSequence sequence
  | (_, []) => false

/-- The number of an invoice. -/
structure InvoiceNumber where
  value : String
  isInvoiceNumber : isInvoiceNumber value = true
  deriving DecidableEq, Repr

/-- A counter and the value it hands out next. -/
structure Counter where
  next : Int
  deriving DecidableEq, Repr

namespace Counter

/-- Counters begin here unless they are told otherwise. -/
def start : Counter := ⟨1000⟩

/-- The next value, and the counter behind it. -/
def draw (c : Counter) : Int × Counter := (c.next, ⟨c.next + 1⟩)

end Counter

namespace InvoiceNumber

/-- The series of a number when none is asked for. -/
def defaultSeries : String := "INV"

/-- The invoice number that a text is. -/
def of? (s : String) : Option InvoiceNumber :=
  if h : Billing.isInvoiceNumber s = true then some ⟨s, h⟩ else none

/-- Takes a given value as an invoice number. -/
def of (g : Given) : Except Failure InvoiceNumber := do
  let _ ← g.toLabel "InvoiceNumber"
  let found := match g with
    | .text s => of? s
    | _ => none
  match found with
  | some n => return n
  | none =>
      throw (.invalid "InvoiceNumber"
        ("Invalid format: " ++ g.shown ++ ". Expected format: XXX-123456"))

/-- An integer with zeros in front up to six characters; a sign is one of them. -/
def sequenceText (n : Int) : List Char :=
  if n < 0 then '-' :: Text.zeroFill 5 (Digits.chars n.natAbs)
  else Text.zeroFill 6 (Digits.chars n.natAbs)

/-- The number of a series at a value of the counter. -/
def ofCounter (series : String) (n : Int) : Except Failure InvoiceNumber :=
  of (.text (series ++ "-" ++ String.ofList (sequenceText n)))

/-- The next number of a series. The value of the counter is used up even if the series is not
one that numbers can have. -/
def generate (series : String) (c : Counter) : Except Failure InvoiceNumber × Counter :=
  let (n, c) := c.draw
  (ofCounter series n, c)

/-- The letters in front of the hyphen. -/
def series (n : InvoiceNumber) : String := String.ofList (n.value.toList.takeWhile (· ≠ '-'))

/-- The number behind the hyphen. -/
def sequence (n : InvoiceNumber) : Nat :=
  Digits.toNat ((n.value.toList.dropWhile (· ≠ '-')).filterMap Text.asciiDigit?)

end InvoiceNumber

end Billing
