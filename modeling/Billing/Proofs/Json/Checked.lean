import Mathlib.Tactic
import Billing.Json.Checked

set_option autoImplicit false

/-! # When a checked value is read

A value is read when all of its parts are (`Checked.seq_eq_ok_iff`), and a part that need not be
there when it is not there, or is read (`Json.optional_eq_ok_iff`).
-/

namespace Billing

namespace Checked

variable {α β : Type} {x : Checked α} {a : α} {b : β}

@[simp] theorem map_ok (f : α → β) (a : α) : (f <$> (ok a : Checked α)) = ok (f a) := rfl

@[simp] theorem seq_ok (f : α → β) (a : α) : ((ok f : Checked (α → β)) <*> ok a) = ok (f a) := rfl

@[simp] theorem under_ok (step : String) (a : α) : (ok a).under step = ok a := rfl

theorem map_eq_ok_iff {f : α → β} : f <$> x = ok b ↔ ∃ a, x = ok a ∧ f a = b := by
  cases x with
  | ok a => simp
  | bad defects => exact iff_of_false nofun (by simp)

theorem seq_eq_ok_iff {f : Checked (α → β)} :
    f <*> x = ok b ↔ ∃ g a, f = ok g ∧ x = ok a ∧ g a = b := by
  cases f with
  | ok g =>
      cases x with
      | ok a => simp
      | bad defects => exact iff_of_false nofun (by simp)
  | bad defects => cases x <;> exact iff_of_false nofun (by simp)

theorem under_eq_ok_iff {step : String} : x.under step = ok a ↔ x = ok a := by
  cases x with
  | ok a => rfl
  | bad defects => exact iff_of_false nofun nofun

end Checked

open Checked

theorem Json.optional_eq_ok_iff {α : Type} {key : String} {default a : α}
    {read : Json → Checked α} {members : List (String × Json)} :
    optional key default read members = .ok a ↔
      (lookup? key members = none ∧ default = a) ∨
        ∃ v, lookup? key members = some v ∧ read v = .ok a := by
  unfold optional
  cases lookup? key members with
  | none => simp
  | some v => simp [under_eq_ok_iff]

end Billing
