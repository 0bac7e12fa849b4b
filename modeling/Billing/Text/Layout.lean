import Billing.Text.Digit

set_option autoImplicit false

/-! # Columns and digit groups

Fixed-width columns are counted in characters (`padStart`, `padEnd`); numbers are written with
leading zeros (`zeroFill`) or with their digits in groups of three (`groupThousands`).
-/

namespace Billing.Text

/-- The text at the right end of a column of the given width; a longer text stays whole. -/
def padStart (width : Nat) (s : String) : String :=
  String.ofList (List.replicate (width - s.length) ' ' ++ s.toList)

/-- The text at the left end of a column of the given width; a longer text stays whole. -/
def padEnd (width : Nat) (s : String) : String :=
  String.ofList (s.toList ++ List.replicate (width - s.length) ' ')

/-- The digits with zeros in front, up to the given width. -/
def zeroFill (width : Nat) (ds : List Char) : List Char :=
  List.replicate (width - ds.length) '0' ++ ds

/-- The digits with a comma before every group of three that is followed by none but whole
groups, counted from the right. -/
def groupThousands : List Char → List Char
  | [] => []
  | [d] => [d]
  | d :: e :: ds =>
      if (ds.length + 1) % 3 = 0 then d :: ',' :: groupThousands (e :: ds)
      else d :: groupThousands (e :: ds)

/-- Whether one text begins with another. -/
def startsWith (s start : String) : Bool := start.toList.isPrefixOf s.toList

end Billing.Text
