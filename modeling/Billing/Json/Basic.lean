import Billing.Binary64

set_option autoImplicit false

/-! # JSON values

A `Json` value is what a JSON text stands for. Whole numbers are kept exactly; those that do not
fit a word of 64 bits can be told apart as `long`. Numbers with a fraction or an exponent are
double-precision numbers. Objects keep the order of their members.
-/

namespace Billing

/-- A JSON value. -/
inductive Json where
  | null
  | bool (b : Bool)
  | int (n : Int)
  | long (n : Int)
  | real (x : Binary64)
  | str (s : String)
  | arr (elements : List Json)
  | obj (members : List (String × Json))

namespace Json

/-- Whether a whole number fits a word of 64 bits. -/
def isWord (n : Int) : Bool := -(twoTo 63 : Int) ≤ n && n < twoTo 63

/-- How many characters a whole number in a text may have, its sign included. -/
def maxNumberLength : Nat := 4300

/-- The last value in a list of members that has a key. -/
def lookup? (key : String) : List (String × Json) → Option Json
  | [] => none
  | (k, v) :: members =>
      match lookup? key members with
      | some found => some found
      | none => if k = key then some v else none

/-- The member of an object with a key. Of several, the last one counts. -/
def field? (key : String) : Json → Option Json
  | obj members => lookup? key members
  | _ => none

/-- A text, or null if there is none. -/
def ofOption {α : Type} (f : α → Json) : Option α → Json
  | some a => f a
  | none => null

end Json

end Billing
