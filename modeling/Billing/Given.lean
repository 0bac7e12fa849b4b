import Billing.Binary64
import Billing.Calendar.Moment
import Billing.Failure
import Billing.TaxRate.Basic
import Billing.Text.Label
import Billing.Text.Quoted

set_option autoImplicit false

/-! # Given values

Callers hand over values of many kinds, and each field says which of them it takes. A `Given` is
such a value before a field has looked at it. `Given.shown` shows it, `Given.toDecimal` takes it as
a number, `Given.toLabel` as a text that must not be blank, and `Given.choose` as one of a list of
names.
-/

namespace Billing

/-- A value as a caller hands it over. Texts are sequences of Unicode characters, without lone
surrogates. -/
inductive Given where
  | missing
  | bool (b : Bool)
  | int (n : Int)
  | float (x : Binary64)
  | decimal (d : Numeral)
  | text (s : String)
  | day (d : Date)
  | moment (m : Moment)
  | money (m : Money)
  | taxRate (t : TaxRate)
  | list (xs : List Given)

namespace Given

/-! ## Showing -/

mutual

/-- A given value as shown in messages. -/
def shown : Given → String
  | missing => "None"
  | bool true => "True"
  | bool false => "False"
  | int n => Digits.intText n
  | float x => x.text
  | decimal d => d.text
  | text s => s
  | day d => d.text
  | moment m => String.map (fun c => if c = 'T' then ' ' else c) m.text
  | money m => m.text
  | taxRate t => t.display
  | list xs => "[" ++ String.intercalate ", " (shownElements xs) ++ "]"

/-- The elements of a given list as shown; texts are quoted. -/
def shownElements : List Given → List String
  | [] => []
  | text s :: xs => Text.quote s :: shownElements xs
  | x :: xs => x.shown :: shownElements xs

end

/-- Whether a given value can be displayed. Only money and tax rates have a display. -/
def hasDisplay : Given → Bool
  | money _ => true
  | taxRate _ => true
  | _ => false

/-! ## Taking a given value as a number or a text -/

/-- A numeral is a number when it is finite. -/
def finite? : Numeral → Option Decimal
  | .finite d => some d
  | _ => none

/-- The number that a given value stands for, if it stands for one. Truth values are no numbers,
a floating-point number stands for its shortest text, and a text is read. -/
def decimal? : Given → Option Decimal
  | int n => some (Decimal.ofInt n)
  | float x => finite? x.numeral
  | decimal d => finite? d
  | text s => (Numeral.ofText? s).bind finite?
  | _ => none

/-- The day of a date or of a moment. -/
def date? : Given → Option Date
  | day d => some d
  | moment m => some m.date
  | _ => none

/-- A value counts as missing when it is not there or is a blank text. -/
def isMissing : Given → Bool
  | missing => true
  | text s => Text.isBlankText s
  | _ => false

/-- Refuses a value that is not there at all; a blank text is there. -/
def require (field : String) : Given → Except Failure Unit
  | missing => .error (.required field)
  | _ => .ok ()

/-- Takes a given value as a number. -/
def toDecimal (field : String) (g : Given) : Except Failure Decimal :=
  if g.isMissing then .error (.required field)
  else
    match g.decimal? with
    | some d => .ok d
    | none => .error (.invalid field g.shown)

/-- Takes a given value as a text that is not blank, without the blanks around it. -/
def toLabel (field : String) (g : Given) : Except Failure Label :=
  match g with
  | missing => .error (.required field)
  | _ =>
      match Label.of? g.shown with
      | some l => .ok l
      | none => .error (.required field)

/-- Takes a given value as a name, as it is; nothing given is no name. -/
def choose? {α : Type} (field : String) (ofName? : String → Option α) (g : Given) :
    Except Failure (Option α) :=
  match g with
  | missing => .ok none
  | text s =>
      match ofName? s with
      | some a => .ok (some a)
      | none => .error (.invalid field s)
  | _ => .error (.invalid field g.shown)

/-- Takes a given value as a name that must be there, without the blanks around it. -/
def choose {α : Type} (field : String) (ofName? : String → Option α) (g : Given) :
    Except Failure α := do
  let l ← g.toLabel field
  match ofName? l.text with
  | some a => return a
  | none => throw (.invalid field g.shown)

end Given

end Billing
