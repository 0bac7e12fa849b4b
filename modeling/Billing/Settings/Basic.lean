import Billing.Invoice.Number
import Billing.Json.Scalar
import Billing.Settings.Address

set_option autoImplicit false

/-! # Settings

What can be chosen about the program: where its database is, the series of the numbers that it
gives to invoices, how many numbers it tries, and how much it logs. `Settings.read` checks settings
that are handed over by name or found in the environment, and reports everything that is wrong
with them.
-/

namespace Billing

/-- How much is logged. -/
inductive LogLevel where
  | debug
  | info
  | warning
  | error
  deriving DecidableEq, Repr

namespace LogLevel

def name : LogLevel → String
  | debug => "DEBUG"
  | info => "INFO"
  | warning => "WARNING"
  | error => "ERROR"

def all : List LogLevel := [debug, info, warning, error]

/-- The level with a name. -/
def ofName? (s : String) : Option LogLevel := all.find? (·.name = s)

/-- Reads a level. -/
def read : Json → Checked LogLevel
  | .str s =>
      match ofName? s with
      | some l => .ok l
      | none => .defect .choiceUnknown
  | _ => .defect .choiceUnknown

end LogLevel

/-- A series of invoice numbers. -/
structure Series where
  letters : String
  isSeries : isSeries letters.toList = true
  deriving DecidableEq, Repr

namespace Series

/-- The series of new invoices unless another one is chosen. -/
def invoices : Series := ⟨"INV", by decide⟩

/-- The series of prorated invoices unless another one is chosen. -/
def prorations : Series := ⟨"PRO", by decide⟩

/-- Reads a series. -/
def read : Json → Checked Series
  | .str s => if h : Billing.isSeries s.toList = true then .ok ⟨s, h⟩ else .defect .patternMismatch
  | _ => .defect .stringType

end Series

/-- How many numbers are tried before the service gives up. -/
structure Attempts where
  count : Nat
  count_pos : 1 ≤ count
  count_le : count ≤ 100
  deriving DecidableEq, Repr

namespace Attempts

/-- The attempts unless another number is chosen. -/
def five : Attempts := ⟨5, by decide, by decide⟩

/-- The attempts that a whole number stands for. -/
def ofInt (n : Int) : Checked Attempts :=
  if h : 1 ≤ n then
    if h' : n ≤ 100 then .ok ⟨n.toNat, by omega, by omega⟩ else .defect .aboveMost
  else .defect .belowLeast

/-- Reads a number of attempts. -/
def read (v : Json) : Checked Attempts := (Json.integer v).andThen ofInt

end Attempts

/-- The settings of the program. -/
structure Settings where
  address : Address
  invoiceSeries : Series
  prorationSeries : Series
  attempts : Attempts
  logLevel : LogLevel
  debug : Bool
  deriving DecidableEq, Repr

namespace Settings

/-- The names of the settings. -/
def names : List String :=
  ["database_url", "invoice_number_prefix", "proration_number_prefix",
    "number_allocation_attempts", "log_level", "debug"]

/-- Reads settings by name. -/
def ofMembers (members : List (String × Json)) : Checked Settings :=
  Settings.mk <$> Json.required "database_url" Address.read members
    <*> Json.optional "invoice_number_prefix" Series.invoices Series.read members
    <*> Json.optional "proration_number_prefix" Series.prorations Series.read members
    <*> Json.optional "number_allocation_attempts" Attempts.five Attempts.read members
    <*> Json.optional "log_level" LogLevel.info LogLevel.read members
    <*> Json.optional "debug" false Json.boolean members

/-- What every setting is called in the environment begins like this, in small or capital
letters. -/
def environmentMark : String := "invoicing_"

/-- The setting that a variable of the environment is for. -/
def settingOf? (entry : String × String) : Option (String × Json) :=
  let name := String.map Char.toLower entry.1
  if Text.startsWith name environmentMark then
    some (String.ofList (name.toList.drop environmentMark.length), .str entry.2)
  else none

/-- Settings that are handed over must have known names. -/
def checkNames (given : List (String × Json)) : Checked Unit :=
  match (given.map Prod.fst).filter fun name => !names.contains name with
  | [] => .ok ()
  | unknown => .bad (unknown.map fun name => ⟨[name], .unexpected⟩)

/-- Reads settings that are handed over, and those that are not from the environment. -/
def read (environment : List (String × String)) (given : List (String × Json)) :
    Checked Settings :=
  (fun settings _ => settings) <$> ofMembers (environment.filterMap settingOf? ++ given)
    <*> checkNames given

end Settings

end Billing
