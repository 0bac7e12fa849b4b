import Billing.Proofs.Invoice.Run

set_option autoImplicit false

/-! # Versions of an invoice

No command looks at the version of an invoice. So a run of commands goes the same way at every
version, with the same results and failures (`Invoice.outcomes_atVersion`).
-/

namespace Billing

/-- The same invoice at another version. -/
def Invoice.atVersion (version : Int) (inv : Invoice) : Invoice := { inv with version }

namespace Edit

open Procedure

variable {α β : Type}

/-- An edit goes the same way at every version, and leaves the version alone. -/
def Unversioned (edit : Edit α) : Prop :=
  ∀ (version : Int) (inv : Invoice),
    edit.on (inv.atVersion version) = ((edit.on inv).1, (edit.on inv).2.atVersion version)

theorem unversioned_pure (a : α) : Unversioned (pure a) := fun _ _ => rfl

theorem Unversioned.bind {edit : Edit α} {f : α → Edit β} (h : edit.Unversioned)
    (hf : ∀ a, (f a).Unversioned) : (edit >>= f).Unversioned := by
  intro version inv
  rw [on_bind, on_bind, h version inv]
  cases edit.on inv with
  | mk r after =>
      cases r with
      | ok a => exact hf a version after
      | error e => rfl

end Edit

namespace Invoice

open Edit Procedure

theorem unversioned_addItem (item : LineItem) : (addItem item).Unversioned := by
  intro version inv
  simp only [on_addItem, atVersion]
  split
  · cases requireItemCurrency inv.currency item with
    | error e => rfl
    | ok _ =>
        dsimp only
        split <;> rfl
  · rfl

theorem unversioned_removeItem (id : String) : (removeItem id).Unversioned := by
  intro version inv
  simp only [on_removeItem, atVersion]
  split
  · cases inv.items.find? fun i => i.id.text == id <;> rfl
  · rfl

theorem unversioned_updateItem (id : String) (patch : ItemPatch) :
    (updateItem id patch).Unversioned := by
  intro version inv
  simp only [on_updateItem, atVersion]
  split
  · cases inv.items.find? fun i => i.id.text == id with
    | none => rfl
    | some item =>
        dsimp only
        cases patched inv.currency patch item <;> rfl
  · rfl

theorem unversioned_finalize (now : Moment) : (finalize now).Unversioned := by
  intro version inv
  simp only [on_finalize, atVersion]
  split_ifs <;> rfl

theorem unversioned_send (now : Moment) : (send now).Unversioned := by
  intro version inv
  simp only [on_send, atVersion]
  split_ifs <;> rfl

theorem unversioned_void (reason : Given) (now : Moment) : (void reason now).Unversioned := by
  intro version inv
  simp only [on_void, atVersion]
  split_ifs
  · rfl
  · rfl
  · cases reason.toLabel "reason" <;> rfl

theorem total_atVersion (version : Int) (inv : Invoice) :
    (inv.atVersion version).total = inv.total := rfl

theorem paid_atVersion (version : Int) (inv : Invoice) :
    (inv.atVersion version).paid = inv.paid := rfl

theorem unversioned_recordPayment_money (amount : Money) (now : Moment) :
    (recordPayment (.money amount) now).Unversioned := by
  intro version inv
  rw [on_recordPayment_money, on_recordPayment_money, total_atVersion, paid_atVersion]
  have hstatus : (inv.atVersion version).status = inv.status := rfl
  have hcurrency : (inv.atVersion version).currency = inv.currency := rfl
  by_cases hpayable : inv.status.isPayable = true
  · rw [if_pos hpayable, if_pos (hstatus ▸ hpayable)]
    by_cases hsame : amount.currency = inv.currency
    · rw [if_pos hsame, if_pos (hsame.trans hcurrency.symm)]
      split
      · cases inv.paid.add amount with
        | error e => rfl
        | ok paid =>
            cases inv.total with
            | error e => rfl
            | ok total =>
                dsimp only
                cases settledStatus paid total <;> rfl
      · rfl
    · rw [if_neg hsame, if_neg fun h => hsame (h.trans hcurrency), hcurrency]
  · rw [if_neg hpayable, if_neg (hstatus ▸ hpayable)]

theorem unversioned_recordPayment (payment : Given) (now : Moment) :
    (recordPayment payment now).Unversioned := by
  cases payment with
  | money amount => exact unversioned_recordPayment_money amount now
  | _ =>
      -- anything else is refused once the state has been looked at
      intro version inv
      simp only [recordPayment, on_get_bind, refuse_bind, on_unless, on_throw, atVersion]
      split <;> rfl

theorem unversioned_markAsPaid (amount : Money) (now : Moment) :
    (markAsPaid amount now).Unversioned := by
  intro version inv
  rw [on_markAsPaid, on_markAsPaid, total_atVersion]
  cases inv.total with
  | error e => rfl
  | ok total =>
      dsimp only
      cases amount.equals total with
      | error e => rfl
      | ok same =>
          cases same with
          | false => rfl
          | true => exact unversioned_recordPayment_money amount now version inv

/-- No command looks at the version of an invoice. -/
theorem unversioned_apply (clock : Moment) (command : Command) :
    (apply clock command).Unversioned := by
  cases command with
  | addItem item => exact (unversioned_addItem item).bind fun _ => unversioned_pure _
  | removeItem id => exact (unversioned_removeItem id).bind fun _ => unversioned_pure _
  | updateItem id patch =>
      exact (unversioned_updateItem id patch).bind fun _ => unversioned_pure _
  | finalize now => exact (unversioned_finalize _).bind fun _ => unversioned_pure _
  | send now => exact (unversioned_send _).bind fun _ => unversioned_pure _
  | recordPayment payment now =>
      exact (unversioned_recordPayment payment _).bind fun _ => unversioned_pure _
  | markAsPaid amount now =>
      exact (unversioned_markAsPaid amount _).bind fun _ => unversioned_pure _
  | void reason now => exact (unversioned_void reason _).bind fun _ => unversioned_pure _

/-! ## Runs -/

/-- What a step gives: the invoice after it, or why its command has failed. -/
def outcome (inv : Invoice) (s : Step) : Except Failure Invoice :=
  Edit.result (apply s.clock s.command) inv

theorem outcome_of_accepts {inv : Invoice} {s : Step} (h : inv.accepts s = true) :
    inv.outcome s = .ok (inv.after s) := by
  unfold accepts at h
  rw [outcome, Edit.result, Invoice.after]
  cases hr : (apply s.clock s.command).on inv with
  | mk r after =>
      cases r with
      | ok _ => rfl
      | error e =>
          rw [hr] at h
          cases h

theorem outcome_of_not_accepts {inv : Invoice} {s : Step} (h : inv.accepts s = false) :
    ∃ e, inv.outcome s = .error e := by
  unfold accepts at h
  rw [outcome, Edit.result]
  cases hr : (apply s.clock s.command).on inv with
  | mk r after =>
      cases r with
      | ok _ =>
          rw [hr] at h
          cases h
      | error e => exact ⟨e, rfl⟩

/-- What the steps of a run give, one after the other. -/
def outcomes : Invoice → List Step → List (Except Failure Invoice)
  | _, [] => []
  | inv, s :: steps => inv.outcome s :: (inv.after s).outcomes steps

theorem after_atVersion (version : Int) (inv : Invoice) (s : Step) :
    (inv.atVersion version).after s = (inv.after s).atVersion version :=
  congrArg Prod.snd (unversioned_apply s.clock s.command version inv)

theorem accepts_atVersion (version : Int) (inv : Invoice) (s : Step) :
    (inv.atVersion version).accepts s = inv.accepts s := by
  rw [accepts, accepts, unversioned_apply]

theorem outcome_atVersion (version : Int) (inv : Invoice) (s : Step) :
    (inv.atVersion version).outcome s = (inv.outcome s).map (atVersion version) := by
  rw [outcome, outcome, Edit.result, Edit.result, unversioned_apply]
  cases (apply s.clock s.command).on inv with
  | mk r after => cases r <;> rfl

theorem run_atVersion (version : Int) (inv : Invoice) (steps : List Step) :
    (inv.atVersion version).run steps = (inv.run steps).atVersion version := by
  induction steps generalizing inv with
  | nil => rfl
  | cons s steps ih => rw [run_cons, run_cons, after_atVersion, ih]

theorem outcomes_atVersion (version : Int) (inv : Invoice) (steps : List Step) :
    (inv.atVersion version).outcomes steps =
      (inv.outcomes steps).map (Except.map (atVersion version)) := by
  induction steps generalizing inv with
  | nil => rfl
  | cons s steps ih =>
      rw [outcomes, outcomes, List.map_cons, outcome_atVersion, after_atVersion, ih]

end Invoice

end Billing
