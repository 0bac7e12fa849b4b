import Billing.Json.Basic

set_option autoImplicit false

/-! # Checked reading

Reading a JSON value into a type checks every part of it and reports all `Defect`s at once, each
with its place. A `Checked` value is either what was read or the list of defects; the defects of
several parts are listed one after the other.
-/

namespace Billing

/-- What can be wrong with a part of a value. -/
inductive DefectKind where
  | missing
  | stringType
  | nameUnknown
  | choiceUnknown
  | intType
  | intParsing
  | intFromFraction
  | intTooLarge
  | notFinite
  | belowLeast
  | aboveMost
  | boolType
  | boolParsing
  | patternMismatch
  | objectType
  | listType
  | dateType
  | dateParsing
  | dateInexact
  | dateOutside
  | momentType
  | momentParsing
  | momentOutside
  | addressType
  | addressParsing
  | addressScheme
  | unexpected
  | textInvalid
  deriving DecidableEq, Repr

/-- The name under which a kind of defect is reported. -/
def DefectKind.name : DefectKind → String
  | missing => "missing"
  | stringType => "string_type"
  | nameUnknown => "enum"
  | choiceUnknown => "literal_error"
  | intType => "int_type"
  | intParsing => "int_parsing"
  | intFromFraction => "int_from_float"
  | intTooLarge => "int_parsing_size"
  | notFinite => "finite_number"
  | belowLeast => "greater_than_equal"
  | aboveMost => "less_than_equal"
  | boolType => "bool_type"
  | boolParsing => "bool_parsing"
  | patternMismatch => "string_pattern_mismatch"
  | objectType => "model_type"
  | listType => "list_type"
  | dateType => "date_type"
  | dateParsing => "date_from_datetime_parsing"
  | dateInexact => "date_from_datetime_inexact"
  | dateOutside => "date_parsing"
  | momentType => "datetime_type"
  | momentParsing => "datetime_from_date_parsing"
  | momentOutside => "datetime_parsing"
  | addressType => "url_type"
  | addressParsing => "url_parsing"
  | addressScheme => "url_scheme"
  | unexpected => "extra_forbidden"
  | textInvalid => "json_invalid"

/-- A part of a value, named by the keys and positions that lead to it, and what is wrong with
it. -/
structure Defect where
  path : List String
  kind : DefectKind
  deriving DecidableEq, Repr

/-- The place of a defect: its path with points between the steps. -/
def Defect.place (d : Defect) : String := String.intercalate "." d.path

/-- A value that has been read, or all that is wrong with what it was read from. -/
inductive Checked (α : Type) where
  | ok (a : α)
  | bad (defects : List Defect)
  deriving DecidableEq, Repr

namespace Checked

variable {α β : Type}

/-- One defect of the value itself. -/
def defect (kind : DefectKind) : Checked α := bad [⟨[], kind⟩]

/-- The defects of a part as seen from the whole. -/
def under (step : String) : Checked α → Checked α
  | ok a => ok a
  | bad ds => bad (ds.map fun d => { d with path := step :: d.path })

def map (f : α → β) : Checked α → Checked β
  | ok a => ok (f a)
  | bad ds => bad ds

/-- Both parts; the defects of the first come before those of the second. -/
def both (x : Checked (α → β)) (y : Checked α) : Checked β :=
  match x, y with
  | ok f, ok a => ok (f a)
  | ok _, bad ds => bad ds
  | bad ds, ok _ => bad ds
  | bad ds, bad es => bad (ds ++ es)

/-- A further check of a value that has been read. -/
def andThen (x : Checked α) (f : α → Checked β) : Checked β :=
  match x with
  | ok a => f a
  | bad ds => bad ds

instance : Applicative Checked where
  pure := ok
  map := map
  seq x y := both x (y ())

end Checked

/-! ## Reading parts -/

namespace Json

variable {α : Type}

/-- Reads the member with a key, which must be there. -/
def required (key : String) (read : Json → Checked α) (members : List (String × Json)) :
    Checked α :=
  match lookup? key members with
  | some v => (read v).under key
  | none => (Checked.defect .missing).under key

/-- Reads the member with a key; without it there is a default. -/
def optional (key : String) (default : α) (read : Json → Checked α)
    (members : List (String × Json)) : Checked α :=
  match lookup? key members with
  | some v => (read v).under key
  | none => .ok default

/-- Reads a value that may be null. -/
def nullable (read : Json → Checked α) : Json → Checked (Option α)
  | null => .ok none
  | v => (read v).map some

/-- Reads an object by its members. -/
def object (read : List (String × Json) → Checked α) : Json → Checked α
  | obj members => read members
  | _ => .defect .objectType

/-- Reads the elements of an array, the first of which has the given position. -/
def elementsFrom (read : Json → Checked α) : Nat → List Json → Checked (List α)
  | _, [] => .ok []
  | n, x :: xs =>
      ((((read x).under (Digits.text n)).map List.cons).both (elementsFrom read (n + 1) xs))

/-- Reads an array. -/
def array (read : Json → Checked α) : Json → Checked (List α)
  | arr xs => elementsFrom read 0 xs
  | _ => .defect .listType

/-- Reads a text. -/
def text : Json → Checked String
  | str s => .ok s
  | _ => .defect .stringType

/-- Reads a name. -/
def named (ofName? : String → Option α) : Json → Checked α
  | str s =>
      match ofName? s with
      | some a => .ok a
      | none => .defect .nameUnknown
  | _ => .defect .nameUnknown

end Json

end Billing
