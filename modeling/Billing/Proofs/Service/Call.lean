import Billing.Service
import Billing.Proofs.Store.Access

set_option autoImplicit false

/-! # Calls of a service

A step on the store is a part of a call (`Call.on_access`). A command of the service loads an
invoice, changes it and saves it; what comes of it follows from these three (`Service.on_perform`),
unless the command cannot be reported.
-/

namespace Billing

namespace Call

open Access

variable {σ α : Type}

/-- A step on the store gives what it gives, and changes nothing but the store. -/
theorem on_access (step : Access σ α) (desk : Desk σ) :
    (access step).on desk =
      ((step.on desk.store).1, { desk with store := (step.on desk.store).2 }) :=
  Procedure.on_onPart _ _ step desk

theorem on_ofResult (r : Except Failure α) (desk : Desk σ) :
    (ofResult r : Call σ α).on desk = (refusing r, desk) := by
  cases r <;> rfl

end Call

namespace Service

open Access Procedure

variable {σ : Type} {desk : Desk σ} {inv : Invoice} {id : String}

theorem on_getInvoice (s : Service σ)
    (h : (s.repository.findById id).Reads desk.store (.ok (some inv))) :
    (s.getInvoice id).on desk = (.ok inv, desk) := by
  unfold Reads at h
  rw [getInvoice, on_bind, Call.on_access, h]
  rfl

/-- A command that cannot be reported fails before anything is looked up. -/
theorem on_perform_of_not_reportable (s : Service σ) (id : String) {command : Command}
    (report : isReportable command = false) (desk : Desk σ) :
    (s.perform id command).on desk = (.error .noDisplay, desk) := by
  rw [perform, report]
  rfl

/-- What comes of a command on an invoice that is stored. -/
theorem on_perform (s : Service σ) {command : Command} (report : isReportable command = true)
    (h : (s.repository.findById id).Reads desk.store (.ok (some inv))) :
    (s.perform id command).on desk =
      match (Invoice.apply s.clock command).result inv with
      | .error e => (.error (.refused e), desk)
      | .ok changed =>
          (((s.repository.save changed).on desk.store).1,
            { desk with store := ((s.repository.save changed).on desk.store).2 }) := by
  rw [perform, report, if_pos rfl, on_bind, s.on_getInvoice h]
  dsimp only
  rw [on_bind, Call.on_ofResult]
  cases (Invoice.apply s.clock command).result inv with
  | error e => rfl
  | ok changed => exact Call.on_access _ desk

end Service

end Billing
