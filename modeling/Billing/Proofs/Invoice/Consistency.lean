import Billing.Proofs.Invoice.Currency

set_option autoImplicit false

/-! # Invoices are consistent throughout their life

`Invoice.Consistent` says how the state of an invoice goes together with its items, its moments and
what has been paid. A new invoice is consistent (`consistent_of_create`), and every successful
command keeps it so (`Consistent.change`); hence it is consistent after every run
(`consistent_run`).
-/

namespace Billing.Invoice

/-- What has been paid, compared in cents with the total of the items. -/
def PaidAgainstTotal (inv : Invoice) (compared : Int → Int → Prop) : Prop :=
  ∃ paid total, inv.paidAmount = some paid ∧ inv.total = .ok total ∧
    paid.currency = total.currency ∧ compared paid.amount.signedCents total.amount.signedCents

/-- How the parts of an invoice go together. -/
structure Consistent (inv : Invoice) : Prop where
  /-- items are in the currency of the invoice, and something of them is sold for something -/
  items : ∀ i ∈ inv.items, i.unitPrice.currency = inv.currency ∧
    Decimal.zero.lt i.quantity = true ∧ 0 < i.unitPrice.amount.signedCents
  ids : (inv.items.map LineItem.id).Nodup
  /-- nothing has happened to a draft -/
  draft : inv.status = .draft →
    inv.finalizedAt = none ∧ inv.sentAt = none ∧ inv.paidAt = none ∧ inv.voidedAt = none ∧
      inv.paidAmount = none
  /-- only drafts and void invoices may have no items -/
  finalized : inv.status ≠ .draft → inv.status ≠ .void →
    inv.items ≠ [] ∧ inv.finalizedAt.isSome
  sent : inv.status ∈ [.sent, .partiallyPaid, .paid, .overpaid] → inv.sentAt.isSome
  unpaid : inv.status ∈ [.finalized, .sent] → inv.paidAmount = none
  partiallyPaid : inv.status = .partiallyPaid →
    inv.PaidAgainstTotal fun paid total => 0 < paid ∧ paid < total
  paid : inv.status = .paid → inv.PaidAgainstTotal fun paid total => paid = total
  overpaid : inv.status = .overpaid → inv.PaidAgainstTotal fun paid total => total < paid
  paidAt : inv.paidAt.isSome ↔ inv.status = .paid
  voidReason : inv.voidReason.isSome ↔ inv.status = .void
  reason : ∀ reason, inv.voidReason = some reason → Text.isBlankText reason = false
  voidedAt : inv.voidedAt.isSome ↔ inv.status = .void
  frequency : inv.type = .recurring → inv.frequency.isSome

variable {f : InvoiceFields} {today : Date} {fresh : Fresh} {clock : Moment}
  {inv after : Invoice} {command : Command} {result : Option LineItem} {items : List LineItem}

/-! ## New invoices -/

theorem consistent_of_create (h : create f today fresh = .ok inv) : inv.Consistent := by
  obtain ⟨hrestore, hfrequency⟩ := create_eq_ok h
  obtain ⟨hdraft, hitems, hfinalizedAt, hsentAt, hpaidAt, hvoidedAt, hpaid, hreason⟩ :=
    restore_new hrestore
  exact {
    items := by simp [hitems]
    ids := by simp [hitems]
    draft := fun _ => ⟨hfinalizedAt, hsentAt, hpaidAt, hvoidedAt, hpaid⟩
    finalized := fun hne => absurd hdraft hne
    sent := by simp [hdraft]
    unpaid := fun _ => hpaid
    partiallyPaid := by simp [hdraft]
    paid := by simp [hdraft]
    overpaid := by simp [hdraft]
    paidAt := by simp [hpaidAt, hdraft]
    voidReason := by simp [hreason, hdraft]
    reason := by simp [hreason]
    voidedAt := by simp [hvoidedAt, hdraft]
    frequency := hfrequency }

/-! ## Changes -/

/-- Items stay told apart: a new one has an identifier of its own, and an updated one keeps its
identifier. -/
theorem ids_of_change (hids : (inv.items.map LineItem.id).Nodup)
    (h : Change clock inv command result after) : (after.items.map LineItem.id).Nodup := by
  induction h with
  | addItem _ _ new =>
      rw [List.map_append, List.map_singleton, List.nodup_append]
      refine ⟨hids, List.nodup_singleton _, ?_⟩
      intro id hid id' hid'
      obtain ⟨i, hi, rfl⟩ := List.mem_map.1 hid
      obtain rfl := List.mem_singleton.1 hid'
      exact new i hi
  | removeItem => exact hids.sublist (List.eraseP_sublist.map _)
  | updateItem =>
      rw [map_id_replaceItem]
      exact hids
  | markAsPaid _ _ _ ih => exact ih
  | _ => exact hids

namespace Consistent

/-- The items of a draft may be any that are in its currency and told apart. -/
theorem withItems (h : inv.Consistent) (draft : inv.status = .draft)
    (hitems : ∀ i ∈ items, i.unitPrice.currency = inv.currency)
    (hids : (items.map LineItem.id).Nodup) : Consistent { inv with items } where
  items i hi := ⟨hitems i hi, i.quantity_above_zero, i.unitPrice_above_zero⟩
  ids := hids
  draft := h.draft
  finalized hne := absurd draft hne
  sent hmem := absurd hmem (by simp [draft])
  unpaid hmem := absurd hmem (by simp [draft])
  partiallyPaid hp := absurd (draft.symm.trans hp) (by decide)
  paid hp := absurd (draft.symm.trans hp) (by decide)
  overpaid hp := absurd (draft.symm.trans hp) (by decide)
  -- what has happened to the invoice is the same as before
  paidAt := h.paidAt
  voidReason := h.voidReason
  reason := h.reason
  voidedAt := h.voidedAt
  frequency := h.frequency

/-- What has come of the items of a draft. -/
theorem withItems_of_change (h : inv.Consistent) (clock : Moment) (draft : inv.status = .draft)
    (hchange : Change clock inv command result { inv with items }) :
    Consistent { inv with items } :=
  h.withItems draft (itemCurrency_of_change (fun i hi => (h.items i hi).1) hchange)
    (ids_of_change h.ids hchange)

theorem finalize (now : Moment) (h : inv.Consistent) (draft : inv.status = .draft)
    (items : inv.items ≠ []) :
    Consistent { inv with status := .finalized, finalizedAt := some now } := by
  obtain ⟨-, -, hpaidAt, hvoidedAt, hpaid⟩ := h.draft draft
  have hreason : inv.voidReason.isSome = false := by
    simpa [draft] using h.voidReason
  exact {
    items := h.items
    ids := h.ids
    draft := nofun
    finalized := fun _ _ => ⟨items, rfl⟩
    sent := by simp
    unpaid := fun _ => hpaid
    partiallyPaid := nofun
    paid := nofun
    overpaid := nofun
    paidAt := by simp [hpaidAt]
    voidReason := by simp [hreason]
    reason := h.reason
    voidedAt := by simp [hvoidedAt]
    frequency := h.frequency }

theorem send (now : Moment) (h : inv.Consistent) (finalized : inv.status = .finalized) :
    Consistent { inv with status := .sent, sentAt := some now } := by
  have hpaidAt : inv.paidAt.isSome = false := by simpa [finalized] using h.paidAt
  have hreason : inv.voidReason.isSome = false := by simpa [finalized] using h.voidReason
  have hvoidedAt : inv.voidedAt.isSome = false := by simpa [finalized] using h.voidedAt
  exact {
    items := h.items
    ids := h.ids
    draft := nofun
    finalized := fun _ _ => h.finalized (by simp [finalized]) (by simp [finalized])
    sent := fun _ => rfl
    unpaid := fun _ => h.unpaid (by simp [finalized])
    partiallyPaid := nofun
    paid := nofun
    overpaid := nofun
    paidAt := by simp [hpaidAt]
    voidReason := by simp [hreason]
    reason := h.reason
    voidedAt := by simp [hvoidedAt]
    frequency := h.frequency }

/-- While a payment is awaited, what has been paid is not below zero. -/
theorem paid_nonneg (h : inv.Consistent) (payable : inv.status.isPayable = true) :
    0 ≤ inv.paid.amount.signedCents := by
  rcases Status.isPayable_iff.1 payable with hsent | hpartially
  · have hnone := h.unpaid (by simp [hsent])
    simp [Invoice.paid, hnone, Money.zero, Amount.zero, Amount.signedCents]
  · obtain ⟨paid, total, hpaid, -, -, hpos, -⟩ := h.partiallyPaid hpartially
    simp only [Invoice.paid, hpaid, Option.getD_some]
    exact hpos.le

theorem recordPayment {amount paid total : Money} {target : Status} (now : Moment)
    (h : inv.Consistent) (payable : inv.status.isPayable = true)
    (positive : amount.isPositive = true) (sum : inv.paid.add amount = .ok paid)
    (total_eq : inv.total = .ok total) (settled : settledStatus paid total = .ok target) :
    Consistent { inv with
      paidAmount := some paid
      status := target
      paidAt := if target = .paid then some now else inv.paidAt } := by
  have hstatus := Status.isPayable_iff.1 payable
  have hne : inv.status ≠ .draft ∧ inv.status ≠ .void ∧ inv.status ≠ .paid := by
    rcases hstatus with hs | hs <;> simp [hs]
  have hpaidAt : inv.paidAt.isSome = false := by simpa [hne.2.2] using h.paidAt
  have hreason : inv.voidReason.isSome = false := by simpa [hne.2.1] using h.voidReason
  have hvoidedAt : inv.voidedAt.isSome = false := by simpa [hne.2.1] using h.voidedAt
  -- the amount is added exactly, and the items that make up the total have not changed
  have hpos : 0 < paid.amount.signedCents := by
    have hsum := Money.signedCents_of_add_eq_ok sum
    have hamount : 0 < amount.amount.signedCents := Money.isPositive_iff.1 positive
    have hbefore := h.paid_nonneg payable
    omega
  have hcurrency := (settledStatus_eq_ok_iff.1 settled).1
  -- once the comparison with the total is known, the invoice has it
  have against {compared : Int → Int → Prop}
      (hcompared : compared paid.amount.signedCents total.amount.signedCents) :
      PaidAgainstTotal { inv with
        paidAmount := some paid
        status := target
        paidAt := if target = .paid then some now else inv.paidAt } compared :=
    ⟨paid, total, rfl, total_eq, hcurrency, hcompared⟩
  have hcases := settledStatus_cases settled
  have hlt : target = .partiallyPaid → paid.amount.signedCents < total.amount.signedCents := by
    rintro rfl
    simpa using hcases
  have heq : target = .paid → paid.amount.signedCents = total.amount.signedCents := by
    rintro rfl
    simpa using hcases
  have hgt : target = .overpaid → total.amount.signedCents < paid.amount.signedCents := by
    rintro rfl
    simpa using hcases
  have hother : target ≠ .draft ∧ target ≠ .void ∧ target ∉ [.finalized, .sent] := by
    obtain ⟨rfl, -⟩ | ⟨rfl, -⟩ | ⟨rfl, -⟩ := hcases <;> simp
  exact {
    items := h.items
    ids := h.ids
    draft := fun hd => absurd hd hother.1
    finalized := fun _ _ => h.finalized hne.1 hne.2.1
    sent := fun _ => h.sent (by rcases hstatus with hs | hs <;> simp [hs])
    unpaid := fun hmem => absurd hmem hother.2.2
    partiallyPaid := fun ht => against ⟨hpos, hlt ht⟩
    paid := fun ht => against (heq ht)
    overpaid := fun ht => against (hgt ht)
    paidAt := by by_cases ht : target = .paid <;> simp [ht, hpaidAt]
    voidReason := by simp [hreason, hother.2.1]
    reason := h.reason
    voidedAt := by simp [hvoidedAt, hother.2.1]
    frequency := h.frequency }

theorem void (label : Label) (now : Moment) (h : inv.Consistent) (unpaid : inv.status ≠ .paid) :
    Consistent { inv with
      status := .void
      voidReason := some label.text
      voidedAt := some now } := by
  -- a void invoice keeps what has been paid on it, but it was not paid in full
  have hpaidAt : inv.paidAt.isSome = false := by simpa [unpaid] using h.paidAt
  exact {
    items := h.items
    ids := h.ids
    draft := nofun
    finalized := fun _ hne => absurd rfl hne
    sent := by simp
    unpaid := by simp
    partiallyPaid := nofun
    paid := nofun
    overpaid := nofun
    paidAt := by simp [hpaidAt]
    voidReason := by simp
    reason := fun reason hr => Option.some.inj hr ▸ label.not_blank
    voidedAt := by simp
    frequency := h.frequency }

/-- Every successful command keeps an invoice consistent. -/
theorem change (h : inv.Consistent) (hchange : Change clock inv command result after) :
    after.Consistent := by
  induction hchange with
  | addItem draft currency new =>
      exact h.withItems_of_change clock draft (.addItem draft currency new)
  | removeItem draft found => exact h.withItems_of_change clock draft (.removeItem draft found)
  | updateItem draft found checked =>
      exact h.withItems_of_change clock draft (.updateItem draft found checked)
  | finalize draft items => exact h.finalize _ draft items
  | send finalized => exact h.send _ finalized
  | recordPayment payable _ positive sum total_eq settled =>
      exact h.recordPayment _ payable positive sum total_eq settled
  | markAsPaid _ _ _ ih => exact ih
  | void _ unpaid _ => exact h.void _ _ unpaid

end Consistent

/-- An invoice is consistent after every run of commands from its creation, whichever of them
succeed. -/
theorem consistent_run (steps : List Step) (h : create f today fresh = .ok inv) :
    (inv.run steps).Consistent :=
  run_induction (consistent_of_create h) Consistent.change

/-- The sample invoice is sent and paid in two parts. -/
theorem consistent_sample :
    create sampleFields sampleDay (.following 0) = .ok sample ∧
      (sample.run (sampleSending ++ [samplePayment, sampleRest])).status = .paid ∧
      (sample.run (sampleSending ++ [samplePayment, sampleRest])).Consistent :=
  ⟨create_sample, by decide +kernel, consistent_run _ create_sample⟩

end Billing.Invoice
