import Billing.Invoice.Lifecycle
import Billing.Json.Checked

set_option autoImplicit false

/-! # Stores of invoices

A store keeps invoices by their identifiers and sees to it that no two carry one number. A saved
invoice has a version, and an invoice is only saved over the version it was loaded at. What a store
can do is a `Repository`; each call is a step on the store that can fail (`Access`). Saving also
changes the copy of the invoice that the caller holds: it learns its new version (`Saving`).
-/

namespace Billing

/-- Why a store or a service on it does not do what it is asked. -/
inductive StoreFailure where
  /-- the invoice itself refuses it -/
  | refused (failure : Failure)
  /-- a stored invoice or a setting cannot be read -/
  | unreadable (defects : List Defect)
  /-- another invoice has the number -/
  | numberTaken (number : String)
  /-- the stored invoice is not the one that was loaded -/
  | conflict (id : String) (expected : Int) (actual : Option Int)
  /-- a constraint of the tables is violated in some other way -/
  | constraintViolated
  /-- a version does not fit into its column -/
  | versionTooLarge
  /-- no invoice has the identifier -/
  | noSuchId (id : String)
  /-- no invoice has the number -/
  | noSuchNumber (number : String)
  /-- a payment cannot be displayed -/
  | noDisplay
  deriving DecidableEq, Repr

namespace StoreFailure

/-- A version, or the word for none. -/
def versionText : Option Int → String
  | some v => Digits.intText v
  | none => "None"

/-- The wording of a failure; defects, failures of the tables and a missing display have none. -/
def message : StoreFailure → String
  | refused failure => failure.message
  | numberTaken number => "Invoice with number " ++ number ++ " already exists"
  | conflict id expected actual =>
      "Invoice " ++ id ++ " was modified concurrently (expected version " ++
        Digits.intText expected ++ ", found " ++ versionText actual ++ ")"
  | noSuchId id => "Invoice with ID " ++ id ++ " not found"
  | noSuchNumber number => "Invoice with number " ++ number ++ " not found"
  | unreadable _ => ""
  | constraintViolated => ""
  | versionTooLarge => ""
  | noDisplay => ""

end StoreFailure

/-- A step on a store, which may fail. -/
abbrev Access (σ α : Type) : Type := Procedure StoreFailure σ α

namespace Access

variable {σ α : Type}

/-- A computation on invoices as a step that leaves the store alone. -/
def ofResult (r : Except Failure α) : Access σ α :=
  match r with
  | .ok a => pure a
  | .error e => throw (.refused e)

/-- What has been read, as a step that leaves the store alone. -/
def ofChecked (r : Checked α) : Access σ α :=
  match r with
  | .ok a => pure a
  | .bad ds => throw (.unreadable ds)

end Access

/-! ## The copy that a caller holds -/

/-- A store, and the copy of an invoice that a caller holds while it is saved. -/
structure Held (σ : Type) where
  store : σ
  copy : Invoice

/-- A step on a store and on the copy that is saved. -/
abbrev Saving (σ α : Type) : Type := Procedure StoreFailure (Held σ) α

namespace Saving

variable {σ : Type}

/-- Saves the copy that is held: it is written to the store, and last of all it learns the version
under which it has been written. -/
def through (write : Invoice → Access σ Unit) : Saving σ Unit := do
  let held ← get
  let expected := held.copy.version
  (write held.copy).onPart Held.store fun held store => { held with store }
  modify fun held => { held with copy := { held.copy with version := expected + 1 } }

/-- Saves a copy of an invoice and gives it back as it is then. -/
def copyOf (saving : Saving σ Unit) (inv : Invoice) : Access σ Invoice := do
  let store ← get
  let (r, held) := saving.on ⟨store, inv⟩
  set held.store
  match r with
  | .ok _ => return held.copy
  | .error e => throw e

end Saving

/-- What can be asked of a store whose contents are a `σ`. -/
structure Repository (σ : Type) where
  /-- Stores an invoice and gives it back with its new version. -/
  save : Invoice → Access σ Invoice
  findById : String → Access σ (Option Invoice)
  findByNumber : String → Access σ (Option Invoice)
  /-- The invoices of a client in the order in which they were first saved. -/
  findByClient : String → Access σ (List Invoice)
  /-- The invoices in a state in the order in which they were first saved. -/
  findByStatus : Status → Access σ (List Invoice)
  /-- The invoices that are overdue on a day, by due date. -/
  findOverdue : Date → Access σ (List Invoice)
  /-- The drafts of an issuer in the order in which they were first saved. -/
  findDraftsBy : String → Access σ (List Invoice)
  existsNumber : String → Access σ Bool
  /-- Removes an invoice and says whether there was one. -/
  delete : String → Access σ Bool

end Billing
