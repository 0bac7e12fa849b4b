import Billing.Proofs.Invoice.Change
import Billing.Proofs.Invoice.Creation
import Billing.Proofs.Invoice.Proration

set_option autoImplicit false

/-! # Failures leave an invoice alone

A failure does not undo what an edit has written before it, so an edit is only safe if its checks
come first. `OnlyReads` are the edits that never write, `Succeeds` those that never fail, and
`Atomic` those that leave the invoice as it was whenever they fail: first what only reads, then what
cannot fail. All commands are built like this (`Invoice.apply_atomic`), and checking a proration and
prorating only read (`Invoice.untouched_by_failures_and_prorations`).
-/

namespace Billing

namespace Edit

open Procedure

variable {α β : Type} {edit : Edit α} {f : α → Edit β}

/-- An edit that never writes, whether it fails or not. -/
def OnlyReads (edit : Edit α) : Prop := ∀ inv, (edit.on inv).2 = inv

/-- An edit that never fails. -/
def Succeeds (edit : Edit α) : Prop := ∀ inv, ∃ a after, edit.on inv = (.ok a, after)

/-- An edit that leaves the invoice as it was whenever it fails. -/
def Atomic (edit : Edit α) : Prop :=
  ∀ inv e after, edit.on inv = (.error e, after) → after = inv

/-- A write stays although the edit fails after it. -/
example (inv : Invoice) : ((do modify fun inv => { inv with status := .paid }; refuse .payPositive :
    Edit Unit).on inv).2 = { inv with status := .paid } := rfl

/-! ## Edits that only read -/

theorem onlyReads_get : (get : Edit Invoice).OnlyReads := fun _ => rfl

theorem onlyReads_pure (a : α) : (pure a : Edit α).OnlyReads := fun _ => rfl

theorem onlyReads_refuse (rule : Rule) : (refuse rule : Edit α).OnlyReads := fun _ => rfl

theorem onlyReads_throw (e : Failure) : (throw e : Edit α).OnlyReads := fun _ => rfl

theorem onlyReads_lift (r : Except Failure α) : (liftM r : Edit α).OnlyReads := by
  intro inv
  cases r <;> rfl

theorem OnlyReads.bind (h : edit.OnlyReads) (hf : ∀ a, (f a).OnlyReads) :
    (edit >>= f).OnlyReads := by
  intro inv
  rw [on_bind]
  have hafter := h inv
  cases hedit : edit.on inv with
  | mk r after =>
      rw [hedit] at hafter
      cases r with
      | error e => exact hafter
      | ok a => exact (hf a after).trans hafter

theorem onlyReads_requireDraft (change : ItemChange) : (requireDraft change).OnlyReads := by
  refine onlyReads_get.bind fun inv => ?_
  split
  · exact onlyReads_pure ()
  · exact onlyReads_refuse _

theorem onlyReads_requireNext (target : Status) (rule : Rule) :
    (requireNext target rule).OnlyReads := by
  refine onlyReads_get.bind fun inv => ?_
  split
  · exact onlyReads_pure ()
  · exact onlyReads_refuse _

theorem onlyReads_findItem (id : String) : (Invoice.findItem id).OnlyReads := by
  refine onlyReads_get.bind fun inv => ?_
  split
  · exact onlyReads_pure _
  · exact onlyReads_refuse _

/-! ## Edits that cannot fail -/

theorem succeeds_pure (a : α) : (pure a : Edit α).Succeeds := fun inv => ⟨a, inv, rfl⟩

theorem succeeds_set (after : Invoice) : (set after : Edit PUnit).Succeeds :=
  fun _ => ⟨(), after, rfl⟩

theorem succeeds_modify (g : Invoice → Invoice) : (modify g : Edit PUnit).Succeeds :=
  fun inv => ⟨(), g inv, rfl⟩

theorem Succeeds.bind (h : edit.Succeeds) (hf : ∀ a, (f a).Succeeds) : (edit >>= f).Succeeds := by
  intro inv
  obtain ⟨a, mid, ha⟩ := h inv
  rw [on_bind, ha]
  exact hf a mid

/-! ## Edits that check first -/

theorem OnlyReads.atomic (h : edit.OnlyReads) : edit.Atomic := by
  intro inv e after he
  have hafter := h inv
  rw [he] at hafter
  exact hafter

theorem Succeeds.atomic (h : edit.Succeeds) : edit.Atomic := by
  intro inv e after he
  obtain ⟨a, mid, ha⟩ := h inv
  rw [ha] at he
  cases he

/-- Something atomic may follow what only reads. -/
theorem OnlyReads.bind_atomic (h : edit.OnlyReads) (hf : ∀ a, (f a).Atomic) :
    (edit >>= f).Atomic := by
  intro inv e after he
  rw [on_bind] at he
  have hmid := h inv
  cases hedit : edit.on inv with
  | mk r mid =>
      rw [hedit] at he hmid
      cases r with
      | error e' => exact (Prod.mk.inj he).2.symm.trans hmid
      | ok a => exact (hf a mid e after he).trans hmid

/-- What cannot fail may follow something atomic. -/
theorem Atomic.bind_succeeds (h : edit.Atomic) (hf : ∀ a, (f a).Succeeds) :
    (edit >>= f).Atomic := by
  intro inv e after he
  rcases on_bind_eq_error_iff.1 he with hedit | ⟨a, mid, -, hfail⟩
  · exact h inv e after hedit
  · obtain ⟨b, last, hb⟩ := hf a mid
    rw [hb] at hfail
    cases hfail

/-- A check may stand in front of something atomic. -/
theorem atomic_of_unless {c : Prop} [Decidable c] {rule : Rule} {rest : Unit → Edit α}
    (h : (rest ()).Atomic) : (if c then rest () else refuse rule >>= rest).Atomic := by
  split
  · exact h
  · exact (onlyReads_refuse rule).atomic

/-- So may a check the other way round. -/
theorem atomic_of_refuse_if {c : Prop} [Decidable c] {rule : Rule} {rest : Unit → Edit α}
    (h : (rest ()).Atomic) : (if c then refuse rule >>= rest else rest ()).Atomic := by
  split
  · exact (onlyReads_refuse rule).atomic
  · exact h

end Edit

namespace Invoice

open Edit

/-! ## Commands -/

theorem addItem_atomic (item : LineItem) : (addItem item).Atomic :=
  (onlyReads_requireDraft .add).bind_atomic fun _ => onlyReads_get.bind_atomic fun _ =>
    (onlyReads_lift _).bind_atomic fun _ => atomic_of_refuse_if (succeeds_set _).atomic

theorem removeItem_atomic (id : String) : (removeItem id).Atomic :=
  (onlyReads_requireDraft .remove).bind_atomic fun _ =>
    (onlyReads_findItem id).bind_atomic fun _ => (succeeds_modify _).atomic

theorem updateItem_atomic (id : String) (patch : ItemPatch) : (updateItem id patch).Atomic :=
  (onlyReads_requireDraft .update).bind_atomic fun _ =>
    (onlyReads_findItem id).bind_atomic fun _ => onlyReads_get.bind_atomic fun _ =>
      (onlyReads_lift _).bind_atomic fun updated =>
        ((succeeds_set _).bind fun _ => succeeds_pure updated).atomic

theorem finalize_atomic (now : Moment) : (finalize now).Atomic :=
  onlyReads_get.bind_atomic fun _ => atomic_of_unless <| atomic_of_refuse_if <|
    (onlyReads_requireNext _ _).bind_atomic fun _ =>
      ((succeeds_modify _).bind fun _ => succeeds_modify _).atomic

theorem send_atomic (now : Moment) : (send now).Atomic :=
  onlyReads_get.bind_atomic fun _ => atomic_of_unless <|
    (onlyReads_requireNext _ _).bind_atomic fun _ =>
      ((succeeds_modify _).bind fun _ => succeeds_modify _).atomic

theorem recordPayment_atomic (payment : Given) (now : Moment) :
    (recordPayment payment now).Atomic := by
  refine onlyReads_get.bind_atomic fun inv => atomic_of_unless ?_
  split
  next amount =>
    refine atomic_of_unless <| atomic_of_unless <| (onlyReads_lift _).bind_atomic fun paid =>
      (onlyReads_lift _).bind_atomic fun total => (onlyReads_lift _).bind_atomic fun target =>
        (onlyReads_requireNext _ _).bind_atomic fun _ => Succeeds.atomic ?_
    -- from here on it only writes
    refine (succeeds_modify _).bind fun _ => (succeeds_modify _).bind fun _ => ?_
    split
    · exact succeeds_modify _
    · exact succeeds_pure ()
  next => exact (onlyReads_throw _).atomic

theorem markAsPaid_atomic (amount : Money) (now : Moment) : (markAsPaid amount now).Atomic :=
  onlyReads_get.bind_atomic fun _ => (onlyReads_lift _).bind_atomic fun _ =>
    (onlyReads_lift _).bind_atomic fun _ => atomic_of_unless (recordPayment_atomic _ now)

theorem void_atomic (reason : Given) (now : Moment) : (void reason now).Atomic :=
  onlyReads_get.bind_atomic fun _ => atomic_of_refuse_if <| atomic_of_refuse_if <|
    (onlyReads_requireNext _ _).bind_atomic fun _ => (onlyReads_lift _).bind_atomic fun _ =>
      ((succeeds_modify _).bind fun _ => (succeeds_modify _).bind fun _ =>
        succeeds_modify _).atomic

/-- Every command makes all its checks before it writes. -/
theorem apply_atomic (clock : Moment) (command : Command) : (apply clock command).Atomic := by
  cases command with
  | addItem item => exact (addItem_atomic item).bind_succeeds fun _ => succeeds_pure none
  | removeItem id => exact (removeItem_atomic id).bind_succeeds fun _ => succeeds_pure none
  | updateItem id patch =>
      exact (updateItem_atomic id patch).bind_succeeds fun updated => succeeds_pure (some updated)
  | finalize now => exact (finalize_atomic _).bind_succeeds fun _ => succeeds_pure none
  | send now => exact (send_atomic _).bind_succeeds fun _ => succeeds_pure none
  | recordPayment payment now =>
      exact (recordPayment_atomic payment _).bind_succeeds fun _ => succeeds_pure none
  | markAsPaid amount now =>
      exact (markAsPaid_atomic amount _).bind_succeeds fun _ => succeeds_pure none
  | void reason now => exact (void_atomic reason _).bind_succeeds fun _ => succeeds_pure none

/-! ## Prorations -/

theorem checkProration_onlyReads (start finish : Given) (today : Date) :
    (checkProration start finish today).OnlyReads := by
  intro inv
  rw [on_checkProration]

/-- A command that fails leaves the invoice exactly as it was, in whatever state that is and
whatever the failure. Checking a proration and prorating leave it as it was in any case. -/
theorem untouched_by_failures_and_prorations (inv : Invoice) :
    (∀ clock command e after, (apply clock command).on inv = (.error e, after) → after = inv) ∧
      (∀ start finish today, ((checkProration start finish today).on inv).2 = inv) ∧
      ∀ start finish numbering today fresh c,
        ((prorate start finish numbering today fresh).on inv c).1.2 = inv := by
  refine ⟨fun clock command => apply_atomic clock command inv,
    fun start finish today => checkProration_onlyReads start finish today inv,
    fun start finish numbering today fresh c => ?_⟩
  rw [on_prorate]
  split <;> rfl

/-- The sample invoice, sent over an amount that is too large to compute. -/
def sampleBeyond : Invoice :=
  { sample with
    status := .sent
    items := [{ LineItem.sample with
      quantity := ⟨false, 5, 999999⟩
      quantity_pos := by decide
      quantity_readable := by decide +kernel }] }

/-- A payment of 2.50 USD for it fails while the total is computed. -/
def sampleBeyondPayment : Command := .recordPayment (.money ⟨⟨false, 250, by decide⟩, .usd⟩) none

theorem untouched_by_failures_and_prorations_beyond :
    ((apply (Moment.midnight sampleDay) sampleBeyondPayment).on sampleBeyond).1 =
        .error (.arithmetic .overflow) ∧
      ((apply (Moment.midnight sampleDay) sampleBeyondPayment).on sampleBeyond).2 =
        sampleBeyond := by
  have hfails : ((apply (Moment.midnight sampleDay) sampleBeyondPayment).on sampleBeyond).1 =
      .error (.arithmetic .overflow) := by decide +kernel
  exact ⟨hfails, (untouched_by_failures_and_prorations sampleBeyond).1 _ _ _ _
    (Prod.ext hfails rfl)⟩

end Invoice

end Billing
