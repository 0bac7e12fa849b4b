import Mathlib.Tactic
import Billing.Proofs.Item
import Billing.Proofs.Money.Comparison
import Billing.Proofs.Procedure

set_option autoImplicit false

/-! # What a command does to an invoice

`Invoice.Change` lists what the eight commands do when they succeed, each with the conditions under
which it does. `apply_eq_ok_iff` says that carrying out a command succeeds exactly with such a
change.
-/

namespace Billing

/-! ## Edits one step at a time -/

namespace Edit

open Procedure

variable {α β : Type}

@[simp] theorem on_refuse (rule : Rule) (inv : Invoice) :
    (refuse rule : Edit α).on inv = (.error (.broken rule), inv) := rfl

@[simp] theorem refuse_bind (rule : Rule) (f : α → Edit β) :
    ((refuse rule : Edit α) >>= f) = refuse rule := rfl

/-- An edit that results in an invoice has not failed. -/
theorem on_of_result {edit : Edit α} {inv after : Invoice} (h : edit.result inv = .ok after) :
    ∃ a, edit.on inv = (.ok a, after) := by
  unfold result at h
  cases hon : edit.on inv with
  | mk r last =>
      rw [hon] at h
      cases r with
      | error e => cases h
      | ok a =>
          obtain rfl := Except.ok.inj h
          exact ⟨a, rfl⟩

@[simp] theorem on_unless (c : Prop) [Decidable c] (rule : Rule) (edit : Edit α) (inv : Invoice) :
    (if c then edit else refuse rule).on inv =
      if c then edit.on inv else (.error (.broken rule), inv) := by
  split <;> rfl

@[simp] theorem on_refuse_if (c : Prop) [Decidable c] (rule : Rule) (edit : Edit α)
    (inv : Invoice) :
    (if c then refuse rule else edit).on inv =
      if c then (.error (.broken rule), inv) else edit.on inv := by
  split <;> rfl

/-! ## Guards -/

@[simp] theorem on_requireDraft_bind (change : ItemChange) (f : Unit → Edit β) (inv : Invoice) :
    (requireDraft change >>= f).on inv =
      if inv.status = .draft then (f ()).on inv
      else (.error (.broken (.onlyDraft change)), inv) := by
  simp only [requireDraft, bind_assoc, on_get_bind]
  split <;> simp

@[simp] theorem on_requireNext_bind (target : Status) (rule : Rule) (f : Unit → Edit β)
    (inv : Invoice) :
    (requireNext target rule >>= f).on inv =
      if target ∈ inv.status.next then (f ()).on inv else (.error (.broken rule), inv) := by
  simp only [requireNext, bind_assoc, on_get_bind, List.contains_iff_mem]
  split <;> simp

@[simp] theorem on_findItem_bind (id : String) (f : LineItem → Edit β) (inv : Invoice) :
    (Invoice.findItem id >>= f).on inv =
      match inv.items.find? fun i => i.id.text == id with
      | some item => (f item).on inv
      | none => (.error (.broken (.itemMissing id)), inv) := by
  simp only [Invoice.findItem, bind_assoc, on_get_bind]
  cases inv.items.find? fun i => i.id.text == id <;> simp

end Edit

theorem Status.isPayable_iff {s : Status} :
    s.isPayable = true ↔ s = sent ∨ s = partiallyPaid := by
  simp [isPayable]

/-! ## Successful commands -/

namespace Invoice

open Edit Procedure

variable {clock : Moment} {inv after : Invoice} {result : Option LineItem} {command : Command}

/-- What a command does when it succeeds: the invoice before it, the item it returns if it returns
one, and the invoice after it. -/
inductive Change (clock : Moment) :
    Invoice → Command → Option LineItem → Invoice → Prop where
  /-- the item goes to the end of a draft that has no item with its identifier -/
  | addItem {inv : Invoice} {item : LineItem} (draft : inv.status = .draft)
      (currency : item.unitPrice.currency = inv.currency)
      (fresh : ∀ i ∈ inv.items, i.id ≠ item.id) :
      Change clock inv (.addItem item) none { inv with items := inv.items ++ [item] }
  | removeItem {inv : Invoice} {id : String} {item : LineItem} (draft : inv.status = .draft)
      (found : inv.items.find? (fun i => i.id.text == id) = some item) :
      Change clock inv (.removeItem id) none
        { inv with items := inv.items.eraseP fun i => i.id.text == id }
  | updateItem {inv : Invoice} {id : String} {patch : ItemPatch} {item updated : LineItem}
      (draft : inv.status = .draft)
      (found : inv.items.find? (fun i => i.id.text == id) = some item)
      (checked : patched inv.currency patch item = .ok updated) :
      Change clock inv (.updateItem id patch) (some updated)
        { inv with items := replaceItem updated inv.items }
  | finalize {inv : Invoice} {now : Option Moment} (draft : inv.status = .draft)
      (items : inv.items ≠ []) :
      Change clock inv (.finalize now) none
        { inv with status := .finalized, finalizedAt := some (now.getD clock) }
  | send {inv : Invoice} {now : Option Moment} (finalized : inv.status = .finalized) :
      Change clock inv (.send now) none
        { inv with status := .sent, sentAt := some (now.getD clock) }
  /-- the sum of all payments decides about the state -/
  | recordPayment {inv : Invoice} {amount paid total : Money} {target : Status}
      {now : Option Moment} (payable : inv.status.isPayable = true)
      (currency : amount.currency = inv.currency) (positive : amount.isPositive = true)
      (sum : inv.paid.add amount = .ok paid) (total_eq : inv.total = .ok total)
      (settled : settledStatus paid total = .ok target) :
      Change clock inv (.recordPayment (.money amount) now) none
        { inv with
          paidAmount := some paid
          status := target
          paidAt := if target = .paid then some (now.getD clock) else inv.paidAt }
  /-- a payment of the total is recorded like any other -/
  | markAsPaid {inv after : Invoice} {amount total : Money} {now : Option Moment}
      (total_eq : inv.total = .ok total) (exact : amount.equals total = .ok true)
      (recorded : Change clock inv (.recordPayment (.money amount) now) none after) :
      Change clock inv (.markAsPaid amount now) none after
  | void {inv : Invoice} {reason : Given} {label : Label} {now : Option Moment}
      (unvoided : inv.status ≠ .void) (unpaid : inv.status ≠ .paid)
      (reason_eq : reason.toLabel "reason" = .ok label) :
      Change clock inv (.void reason now) none
        { inv with
          status := .void
          voidReason := some label.text
          voidedAt := some (now.getD clock) }

theorem on_addItem (item : LineItem) (inv : Invoice) :
    (addItem item).on inv =
      if inv.status = .draft then
        match requireItemCurrency inv.currency item with
        | .ok _ =>
            if inv.items.any fun i => i.id == item.id then
              (.error (.broken (.itemExists item.id.text)), inv)
            else (.ok (), { inv with items := inv.items ++ [item] })
        | .error e => (.error e, inv)
      else (.error (.broken (.onlyDraft .add)), inv) := by
  simp only [addItem, on_requireDraft_bind, on_get_bind, on_lift_bind, refuse_bind, on_refuse_if,
    on_set]
  cases requireItemCurrency inv.currency item <;> rfl

theorem on_removeItem (id : String) (inv : Invoice) :
    (removeItem id).on inv =
      if inv.status = .draft then
        match inv.items.find? fun i => i.id.text == id with
        | some _ => (.ok (), { inv with items := inv.items.eraseP fun i => i.id.text == id })
        | none => (.error (.broken (.itemMissing id)), inv)
      else (.error (.broken (.onlyDraft .remove)), inv) := by
  simp only [removeItem, on_requireDraft_bind, on_findItem_bind, on_modify]

theorem on_updateItem (id : String) (patch : ItemPatch) (inv : Invoice) :
    (updateItem id patch).on inv =
      if inv.status = .draft then
        match inv.items.find? fun i => i.id.text == id with
        | some item =>
            match patched inv.currency patch item with
            | .ok updated => (.ok updated, { inv with items := replaceItem updated inv.items })
            | .error e => (.error e, inv)
        | none => (.error (.broken (.itemMissing id)), inv)
      else (.error (.broken (.onlyDraft .update)), inv) := by
  simp only [updateItem, on_requireDraft_bind, on_findItem_bind, on_get_bind, on_lift_bind,
    on_set_bind, on_pure]
  cases inv.items.find? fun i => i.id.text == id with
  | none => rfl
  | some item => cases h : patched inv.currency patch item <;> simp [h]

theorem on_finalize (now : Moment) (inv : Invoice) :
    (finalize now).on inv =
      if inv.status = .draft then
        if inv.items.isEmpty then (.error (.broken .finalizeWithItems), inv)
        else (.ok (), { inv with status := .finalized, finalizedAt := some now })
      else (.error (.broken .finalizeOnlyDraft), inv) := by
  simp only [finalize, on_get_bind, on_unless, refuse_bind, on_refuse_if, on_requireNext_bind,
    on_modify_bind, on_modify]
  split
  next h => simp [h, Status.next]
  next => rfl

theorem on_send (now : Moment) (inv : Invoice) :
    (send now).on inv =
      if inv.status = .finalized then
        (.ok (), { inv with status := .sent, sentAt := some now })
      else (.error (.broken .sendOnlyFinalized), inv) := by
  simp only [send, on_get_bind, on_unless, refuse_bind, on_requireNext_bind, on_modify_bind,
    on_modify]
  split
  next h => simp [h, Status.next]
  next => rfl

theorem on_void (reason : Given) (now : Moment) (inv : Invoice) :
    (void reason now).on inv =
      if inv.status = .void then (.error (.broken .voidOnce), inv)
      else if inv.status = .paid then (.error (.broken .voidUnpaid), inv)
      else
        match reason.toLabel "reason" with
        | .ok label =>
            (.ok (),
              { inv with status := .void, voidReason := some label.text, voidedAt := some now })
        | .error e => (.error e, inv) := by
  simp only [void, on_get_bind, refuse_bind, on_refuse_if, on_requireNext_bind, on_lift_bind,
    on_modify_bind, on_modify]
  cases reason.toLabel "reason" <;> cases h : inv.status <;> simp [Status.next]

/-- The state of an invoice follows from comparing what has been paid with the total. -/
theorem settledStatus_eq_ok_iff {paid total : Money} {target : Status} :
    settledStatus paid total = .ok target ↔
      paid.currency = total.currency ∧
        target = if paid.amount.signedCents = total.amount.signedCents then .paid
          else if paid.amount.signedCents < total.amount.signedCents then .partiallyPaid
          else .overpaid := by
  simp only [settledStatus, Except.bind_eq_ok_iff, Money.equals_eq_ok_iff]
  constructor
  · rintro ⟨_, ⟨hc, rfl⟩, h⟩
    refine ⟨hc, ?_⟩
    split at h
    next he => simp_all
    next hne =>
      obtain ⟨_, hlt, h⟩ := Except.bind_eq_ok_iff.1 h
      obtain rfl := (Money.isLessThan_eq_ok_iff.1 hlt).2
      split at h <;> simp_all
  · rintro ⟨hc, rfl⟩
    refine ⟨_, ⟨hc, rfl⟩, ?_⟩
    have hlt := Money.isLessThan_eq_ok_iff.2 ⟨hc, rfl⟩
    rw [hlt]
    simp only [Except.ok_bind, Except.pure_eq_ok, decide_eq_true_eq]
    split_ifs <;> rfl

/-- The three states that a payment can lead to, and when it leads to each. -/
theorem settledStatus_cases {paid total : Money} {target : Status}
    (h : settledStatus paid total = .ok target) :
    (target = .paid ∧ paid.amount.signedCents = total.amount.signedCents) ∨
      (target = .partiallyPaid ∧ paid.amount.signedCents < total.amount.signedCents) ∨
      (target = .overpaid ∧ total.amount.signedCents < paid.amount.signedCents) := by
  have htarget := (settledStatus_eq_ok_iff.1 h).2
  rcases lt_trichotomy paid.amount.signedCents total.amount.signedCents with hlt | heq | hgt
  · exact .inr (.inl ⟨by rw [htarget, if_neg hlt.ne, if_pos hlt], hlt⟩)
  · exact .inl ⟨by rw [htarget, if_pos heq], heq⟩
  · exact .inr (.inr ⟨by rw [htarget, if_neg hgt.ne', if_neg hgt.not_gt], hgt⟩)

theorem settledStatus_mem_next {paid total : Money} {target : Status}
    (h : settledStatus paid total = .ok target) (payable : inv.status.isPayable = true) :
    target ∈ inv.status.next := by
  -- each of the three states can be reached from both states that await payments
  obtain ⟨rfl, -⟩ | ⟨rfl, -⟩ | ⟨rfl, -⟩ := settledStatus_cases h <;>
    rcases Status.isPayable_iff.1 payable with hs | hs <;> simp [hs, Status.next]

theorem on_recordPayment_money (amount : Money) (now : Moment) (inv : Invoice) :
    (recordPayment (.money amount) now).on inv =
      if inv.status.isPayable then
        if amount.currency = inv.currency then
          if amount.isPositive then
            match inv.paid.add amount, inv.total with
            | .error e, _ => (.error e, inv)
            | .ok _, .error e => (.error e, inv)
            | .ok paid, .ok total =>
                match settledStatus paid total with
                | .error e => (.error e, inv)
                | .ok target =>
                    (.ok (),
                      { inv with
                        paidAmount := some paid
                        status := target
                        paidAt := if target = .paid then some now else inv.paidAt })
          else (.error (.broken .payPositive), inv)
        else (.error (.broken (.paymentCurrency amount.currency inv.currency)), inv)
      else (.error (.broken .payOnlyAwaited), inv) := by
  simp only [recordPayment, on_get_bind, refuse_bind, on_unless, on_lift_bind, on_requireNext_bind,
    on_modify_bind, on_modify, on_if_pure]
  split
  next payable =>
    cases inv.paid.add amount with
    | error e => rfl
    | ok paid =>
        cases inv.total with
        | error e => rfl
        | ok total =>
            -- the check of the transition never fails here
            cases h : settledStatus paid total with
            | error e => simp [h]
            | ok target =>
                have next := settledStatus_mem_next h payable
                by_cases hp : target = .paid <;> simp_all
  next => rfl

/-- Only money is a payment. -/
theorem on_recordPayment_other {payment : Given} (now : Moment) (inv : Invoice)
    (h : ∀ m, payment ≠ .money m) :
    ∃ e, (recordPayment payment now).on inv = (.error e, inv) := by
  cases payment <;>
    simp only [recordPayment, on_get_bind, refuse_bind, on_unless, on_throw]
  case money m => exact absurd rfl (h m)
  all_goals split <;> exact ⟨_, rfl⟩

theorem on_markAsPaid (amount : Money) (now : Moment) (inv : Invoice) :
    (markAsPaid amount now).on inv =
      match inv.total with
      | .error e => (.error e, inv)
      | .ok total =>
          match amount.equals total with
          | .error e => (.error e, inv)
          | .ok false => (.error (.broken (.payTotal amount total)), inv)
          | .ok true => (recordPayment (.money amount) now).on inv := by
  simp only [markAsPaid, on_get_bind, on_lift_bind]
  cases inv.total with
  | error e => rfl
  | ok total =>
      cases h : amount.equals total with
      | error e => simp [h]
      | ok r => cases r <;> simp [h]

/-! ## All commands -/

theorem then_none_eq_ok_iff {edit : Edit Unit} :
    (do edit; return none : Edit (Option LineItem)).on inv = (.ok result, after) ↔
      result = none ∧ edit.on inv = (.ok (), after) := by
  rw [on_bind_eq_ok_iff]
  constructor
  · rintro ⟨⟨⟩, mid, h, hr⟩
    obtain ⟨rfl, rfl⟩ := by simpa using hr
    exact ⟨rfl, h⟩
  · rintro ⟨rfl, h⟩
    exact ⟨(), after, h, rfl⟩

theorem addItem_eq_ok_iff {item : LineItem} :
    (addItem item).on inv = (.ok (), after) ↔ Change clock inv (.addItem item) none after := by
  rw [on_addItem]
  constructor
  · intro h
    split at h
    next draft =>
      cases currency : requireItemCurrency inv.currency item with
      | error e => simp [currency] at h
      | ok u =>
          simp only [currency] at h
          split at h
          next => simp at h
          next taken =>
            obtain rfl : _ = after := by simpa using h
            exact .addItem draft (requireItemCurrency_eq_ok_iff.1 currency) (by simpa using taken)
    next => simp at h
  · intro h
    cases h with
    | addItem draft currency fresh =>
        simpa [draft, requireItemCurrency_eq_ok_iff.2 currency] using fresh

theorem removeItem_eq_ok_iff {id : String} :
    (removeItem id).on inv = (.ok (), after) ↔ Change clock inv (.removeItem id) none after := by
  rw [on_removeItem]
  constructor
  · intro h
    split_ifs at h with draft
    · cases found : inv.items.find? fun i => i.id.text == id with
      | none => simp [found] at h
      | some item =>
          obtain rfl := by simpa [found] using h
          exact .removeItem draft found
    · simp at h
  · intro h
    cases h with
    | removeItem draft found => simp [draft, found]

theorem updateItem_eq_ok_iff {id : String} {patch : ItemPatch} {updated : LineItem} :
    (updateItem id patch).on inv = (.ok updated, after) ↔
      Change clock inv (.updateItem id patch) (some updated) after := by
  rw [on_updateItem]
  constructor
  · intro h
    split_ifs at h with draft
    · cases found : inv.items.find? fun i => i.id.text == id with
      | none => simp [found] at h
      | some item =>
          cases checked : patched inv.currency patch item with
          | error e => simp [found, checked] at h
          | ok updated =>
              obtain ⟨rfl, rfl⟩ := by simpa [found, checked] using h
              exact .updateItem draft found checked
    · simp at h
  · intro h
    cases h with
    | updateItem draft found checked => simp [draft, found, checked]

theorem finalize_eq_ok_iff {now : Option Moment} :
    (finalize (now.getD clock)).on inv = (.ok (), after) ↔
      Change clock inv (.finalize now) none after := by
  rw [on_finalize]
  constructor
  · intro h
    split_ifs at h with draft items
    · simp at h
    · obtain rfl := by simpa using h
      exact .finalize draft (by simpa using items)
    · simp at h
  · intro h
    cases h with
    | finalize draft items => simp [draft, items]

theorem send_eq_ok_iff {now : Option Moment} :
    (send (now.getD clock)).on inv = (.ok (), after) ↔ Change clock inv (.send now) none after := by
  rw [on_send]
  constructor
  · intro h
    split_ifs at h with finalized
    · obtain rfl := by simpa using h
      exact .send finalized
    · simp at h
  · intro h
    cases h with
    | send finalized => simp [finalized]

theorem recordPayment_eq_ok_iff {payment : Given} {now : Option Moment} :
    (recordPayment payment (now.getD clock)).on inv = (.ok (), after) ↔
      Change clock inv (.recordPayment payment now) none after := by
  constructor
  · intro h
    -- what is not money is refused, whatever state the invoice is in
    by_cases hp : ∃ amount, payment = .money amount
    · obtain ⟨amount, rfl⟩ := hp
      rw [on_recordPayment_money] at h
      split at h
      next payable =>
        split_ifs at h with currency positive
        · cases sum : inv.paid.add amount with
          | error e => simp [sum] at h
          | ok paid =>
              cases total_eq : inv.total with
              | error e => simp [sum, total_eq] at h
              | ok total =>
                  cases settled : settledStatus paid total with
                  | error e => simp [sum, total_eq, settled] at h
                  | ok target =>
                      obtain rfl := by simpa [sum, total_eq, settled] using h
                      exact .recordPayment payable currency positive sum total_eq settled
        all_goals simp at h
      next => simp at h
    · obtain ⟨e, he⟩ := on_recordPayment_other (now.getD clock) inv fun m hm => hp ⟨m, hm⟩
      simp [he] at h
  · intro h
    cases h with
    | recordPayment payable currency positive sum total_eq settled =>
        rw [on_recordPayment_money]
        simp [payable, currency, positive, sum, total_eq, settled]

theorem markAsPaid_eq_ok_iff {amount : Money} {now : Option Moment} :
    (markAsPaid amount (now.getD clock)).on inv = (.ok (), after) ↔
      Change clock inv (.markAsPaid amount now) none after := by
  rw [on_markAsPaid]
  constructor
  · intro h
    cases total_eq : inv.total with
    | error e => simp [total_eq] at h
    | ok total =>
        cases exact : amount.equals total with
        | error e => simp [total_eq, exact] at h
        | ok r =>
            cases r with
            | false => simp [total_eq, exact] at h
            | true =>
                have recorded : (recordPayment (.money amount) (now.getD clock)).on inv =
                    (.ok (), after) := by simpa [total_eq, exact] using h
                exact .markAsPaid total_eq exact (recordPayment_eq_ok_iff.1 recorded)
  · intro h
    cases h with
    | markAsPaid total_eq exact recorded =>
        simpa [total_eq, exact] using recordPayment_eq_ok_iff.2 recorded

theorem void_eq_ok_iff {reason : Given} {now : Option Moment} :
    (void reason (now.getD clock)).on inv = (.ok (), after) ↔
      Change clock inv (.void reason now) none after := by
  rw [on_void]
  constructor
  · intro h
    split_ifs at h with void paid
    · simp at h
    · simp at h
    · cases reason_eq : reason.toLabel "reason" with
      | error e => simp [reason_eq] at h
      | ok label =>
          obtain rfl := by simpa [reason_eq] using h
          exact .void void paid reason_eq
  · intro h
    cases h with
    | void unvoided unpaid reason_eq => simp [unvoided, unpaid, reason_eq]

/-- The commands other than an update return nothing. -/
theorem Change.result_eq_none (h : Change clock inv command result after)
    (other : ∀ id patch, command ≠ .updateItem id patch) : result = none := by
  cases h with
  | updateItem => exact absurd rfl (other _ _)
  | _ => rfl

/-- A command succeeds exactly when what it does is one of the changes. -/
theorem apply_eq_ok_iff :
    (apply clock command).on inv = (.ok result, after) ↔
      Change clock inv command result after := by
  -- what the commands have in common that return nothing
  have plain {edit : Edit Unit} (other : ∀ id patch, command ≠ .updateItem id patch)
      (h : edit.on inv = (.ok (), after) ↔ Change clock inv command none after) :
      (do edit; return none : Edit (Option LineItem)).on inv = (.ok result, after) ↔
        Change clock inv command result after := by
    rw [then_none_eq_ok_iff, h]
    exact ⟨fun hr => hr.1 ▸ hr.2, fun hc => hc.result_eq_none other ▸ ⟨rfl, hc⟩⟩
  cases command with
  | addItem item => exact plain (by simp) addItem_eq_ok_iff
  | removeItem id => exact plain (by simp) removeItem_eq_ok_iff
  | updateItem id patch =>
      rw [apply, on_bind_eq_ok_iff]
      constructor
      · rintro ⟨updated, mid, h, hr⟩
        obtain ⟨rfl, rfl⟩ := by simpa using hr
        exact updateItem_eq_ok_iff.1 h
      · intro h
        have hedit := h
        cases h with
        | updateItem draft found checked => exact ⟨_, _, updateItem_eq_ok_iff.2 hedit, rfl⟩
  | finalize now => exact plain (by simp) finalize_eq_ok_iff
  | send now => exact plain (by simp) send_eq_ok_iff
  | recordPayment payment now => exact plain (by simp) recordPayment_eq_ok_iff
  | markAsPaid amount now => exact plain (by simp) markAsPaid_eq_ok_iff
  | void reason now => exact plain (by simp) void_eq_ok_iff

end Invoice

end Billing
