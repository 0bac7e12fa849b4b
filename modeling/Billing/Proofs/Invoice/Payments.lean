import Billing.Proofs.Invoice.Currency
import Billing.Proofs.Invoice.Progress

set_option autoImplicit false

/-! # What has been paid

What has been paid on an invoice is the exact sum of the payments that were accepted
(`paid_run`): each of them adds its amount and nothing else changes it. So the order in which
payments arrive does not matter for where the invoice ends up, as long as all of them are accepted
(`payments_conserved`).
-/

namespace Billing

namespace Command

/-- Payments are single payments and payments of the total. -/
def isPayment : Command → Bool
  | recordPayment _ _ => true
  | markAsPaid _ _ => true
  | _ => false

/-- What a command pays, in cents. -/
def cents : Command → Int
  | recordPayment (.money m) _ => m.amount.signedCents
  | markAsPaid m _ => m.amount.signedCents
  | _ => 0

end Command

namespace Invoice

/-- What the payments that are accepted in a run come to, in cents. -/
def acceptedCents : Invoice → List Step → Int
  | _, [] => 0
  | inv, s :: steps =>
      (if inv.accepts s then s.command.cents else 0) + (inv.after s).acceptedCents steps

variable {clock : Moment} {inv after after' : Invoice} {command : Command}
  {result : Option LineItem} {cents : Int} {steps : List Step}

/-! ## One command -/

/-- The accepted payments of an invoice, and where they lead: the items are as before, the cents
have been added, and the state is the one for the new sum. -/
structure Received (inv : Invoice) (cents : Int) (after : Invoice) : Prop where
  items : after.items = inv.items ∧ after.currency = inv.currency
  compared : ∃ paid total, after.paidAmount = some paid ∧ after.total = .ok total ∧
    settledStatus paid total = .ok after.status ∧ paid.currency = inv.paid.currency ∧
    paid.amount.signedCents = inv.paid.amount.signedCents + cents ∧
    paid.amount.negative = decide (paid.amount.signedCents < 0)

/-- Adding a positive amount leaves no doubt about the sign, even of zero. -/
theorem negative_of_add_positive {a b c : Money} (h : a.add b = .ok c)
    (positive : b.isPositive = true) :
    c.amount.negative = decide (c.amount.signedCents < 0) := by
  obtain ⟨-, -, hcents, hsign⟩ := Money.add_eq_ok_iff.1 h
  have hb : 0 < b.amount.signedCents := Money.isPositive_iff.1 positive
  have hnegative : b.amount.negative = false := by
    rw [Amount.negative_eq_of_ne_zero hb.ne', decide_eq_false_iff_not]
    exact hb.not_gt
  rw [hsign, hcents]
  split
  next hzero => simp [hnegative, hzero]
  next => rfl

theorem received_of_change (h : Change clock inv command result after)
    (payment : command.isPayment = true) :
    Received inv command.cents after ∧ 0 < command.cents := by
  induction h with
  | recordPayment _ _ positive sum total_eq settled =>
      obtain ⟨-, hcurrency, hcents, -⟩ := Money.add_eq_ok_iff.1 sum
      refine ⟨⟨⟨rfl, rfl⟩, _, _, rfl, total_eq, settled, hcurrency, hcents,
        negative_of_add_positive sum positive⟩, ?_⟩
      exact Money.isPositive_iff.1 positive
  | markAsPaid _ _ _ ih => exact ih rfl
  | _ => cases payment

theorem paidAmount_of_change (h : Change clock inv command result after)
    (other : command.isPayment = false) : after.paidAmount = inv.paidAmount := by
  cases h with
  | recordPayment => cases other
  | markAsPaid => cases other
  | _ => rfl

theorem cents_of_not_isPayment (other : command.isPayment = false) : command.cents = 0 := by
  cases command with
  | recordPayment => cases other
  | markAsPaid => cases other
  | _ => rfl

/-- Payments add up exactly, and no other command has a part in it. -/
theorem paid_of_change (h : Change clock inv command result after) :
    after.paid.amount.signedCents = inv.paid.amount.signedCents + command.cents ∧
      0 ≤ command.cents := by
  cases payment : command.isPayment with
  | true =>
      obtain ⟨⟨-, sum, total, hsum, -, -, -, hcents, -⟩, hpos⟩ := received_of_change h payment
      refine ⟨?_, hpos.le⟩
      rw [Invoice.paid, hsum, Option.getD_some]
      exact hcents
  | false =>
      rw [cents_of_not_isPayment payment]
      refine ⟨?_, le_rfl⟩
      simp [Invoice.paid, paidAmount_of_change h payment, currency_of_change h]

/-! ## Runs -/

/-- What has been paid after a run is what had been paid before and the accepted payments. -/
theorem paid_run (inv : Invoice) (steps : List Step) :
    (inv.run steps).paid.amount.signedCents =
      inv.paid.amount.signedCents + inv.acceptedCents steps := by
  induction steps generalizing inv with
  | nil => simp [acceptedCents]
  | cons s steps ih =>
      rw [run_cons, ih, acceptedCents]
      -- only an accepted step can add to what has been paid
      cases haccepts : inv.accepts s with
      | false => simp [after_of_not_accepts haccepts]
      | true =>
          obtain ⟨result, hchange⟩ := change_of_accepts haccepts
          rw [(paid_of_change hchange).1]
          simp [add_assoc]

theorem acceptedCents_nonneg (inv : Invoice) (steps : List Step) :
    0 ≤ inv.acceptedCents steps := by
  induction steps generalizing inv with
  | nil => exact le_rfl
  | cons s steps ih =>
      rw [acceptedCents]
      have hrest := ih (inv.after s)
      cases haccepts : inv.accepts s with
      | false => simpa using hrest
      | true =>
          obtain ⟨result, hchange⟩ := change_of_accepts haccepts
          have hs := (paid_of_change hchange).2
          simp only [if_true]
          omega

theorem paid_run_le (inv : Invoice) (steps more : List Step) :
    (inv.run steps).paid.amount.signedCents ≤
      (inv.run (steps ++ more)).paid.amount.signedCents := by
  rw [run_append, paid_run (inv.run steps) more]
  have := acceptedCents_nonneg (inv.run steps) more
  omega

theorem paidAmount_after {s : Step} (other : s.command.isPayment = false) :
    (inv.after s).paidAmount = inv.paidAmount := by
  cases haccepts : inv.accepts s with
  | false => rw [after_of_not_accepts haccepts]
  | true =>
      obtain ⟨result, hchange⟩ := change_of_accepts haccepts
      exact paidAmount_of_change hchange other

/-! ## Payments in any order -/

theorem Received.then {more : Int} {last : Invoice} (h : Received inv cents after)
    (hmore : Received after more last) : Received inv (cents + more) last := by
  obtain ⟨⟨hitems, hcurrency⟩, paid, _, hpaid, -, -, hpaidCurrency, hcents, -⟩ := h
  obtain ⟨⟨hitems', hcurrency'⟩, paid', total', hpaid', htotal', hstatus', hpaidCurrency', hcents',
    hsign'⟩ := hmore
  -- the second payment is added to what the first one left
  have hbefore : after.paid = paid := by rw [Invoice.paid, hpaid, Option.getD_some]
  refine ⟨⟨hitems'.trans hitems, hcurrency'.trans hcurrency⟩, paid', total', hpaid', htotal',
    hstatus', ?_, ?_, hsign'⟩
  · rw [hpaidCurrency', hbefore, hpaidCurrency]
  · rw [hcents', hbefore, hcents, add_assoc]

/-- A list of accepted payments is received like one payment of their sum. -/
theorem received_run (hne : steps ≠ []) (payments : ∀ s ∈ steps, s.command.isPayment = true)
    (accepted : inv.acceptsAll steps = true) :
    Received inv (steps.map fun s => s.command.cents).sum (inv.run steps) := by
  induction steps generalizing inv with
  | nil => exact absurd rfl hne
  | cons s steps ih =>
      rw [acceptsAll, Bool.and_eq_true] at accepted
      obtain ⟨result, hchange⟩ := change_of_accepts accepted.1
      have hs := (received_of_change hchange (payments s List.mem_cons_self)).1
      rw [List.map_cons, List.sum_cons, run_cons]
      -- a single payment is its own sum; otherwise the rest is received after the first
      cases steps with
      | nil => simpa using hs
      | cons s' steps =>
          have hrest := ih (List.cons_ne_nil _ _)
            (fun t ht => payments t (List.mem_cons_of_mem _ ht)) accepted.2
          exact hs.then hrest

/-- The sum that has been received decides about the amount paid, the state and the balance. -/
theorem Received.unique (h : Received inv cents after) (h' : Received inv cents after') :
    after.paidAmount = after'.paidAmount ∧ after.status = after'.status ∧
      after.balanceDue = after'.balanceDue := by
  obtain ⟨⟨hitems, hcurrency⟩, paid, total, hpaid, htotal, hstatus, hpaidCurrency, hcents,
    hsign⟩ := h
  obtain ⟨⟨hitems', hcurrency'⟩, paid', total', hpaid', htotal', hstatus', hpaidCurrency', hcents',
    hsign'⟩ := h'
  -- value and sign of the sum determine the amount, also when it is zero
  have heq : paid = paid' := by
    have hvalue : paid.amount.signedCents = paid'.amount.signedCents := hcents.trans hcents'.symm
    have hamount : paid.amount = paid'.amount :=
      Amount.ext_signed (by rw [hsign, hsign', hvalue]) hvalue
    cases paid
    cases paid'
    simp_all
  have htotals : (.ok total : Except Failure Money) = .ok total' := calc
    .ok total = after.total := htotal.symm
    _ = after'.total :=
        (totals_congr (hitems.trans hitems'.symm) (hcurrency.trans hcurrency'.symm)).2.2
    _ = .ok total' := htotal'
  obtain rfl := Except.ok.inj htotals
  subst heq
  refine ⟨hpaid.trans hpaid'.symm, Except.ok.inj (hstatus.symm.trans hstatus'), ?_⟩
  simp only [balanceDue, Invoice.paid, htotal, htotal', hpaid, hpaid', Option.getD_some]

theorem run_perm {ps qs : List Step} (perm : ps.Perm qs)
    (payments : ∀ s ∈ ps, s.command.isPayment = true) (hps : inv.acceptsAll ps = true)
    (hqs : inv.acceptsAll qs = true) :
    (inv.run ps).paidAmount = (inv.run qs).paidAmount ∧
      (inv.run ps).status = (inv.run qs).status ∧
      (inv.run ps).balanceDue = (inv.run qs).balanceDue := by
  by_cases hne : ps = []
  · subst hne
    obtain rfl := List.nil_perm.1 perm
    exact ⟨rfl, rfl, rfl⟩
  · have hne' : qs ≠ [] := fun h => hne (List.perm_nil.1 (h ▸ perm))
    have hps := received_run hne payments hps
    have hqs := received_run hne' (fun s hs => payments s (perm.mem_iff.2 hs)) hqs
    -- the sum does not depend on the order
    rw [(perm.map _).sum_eq] at hps
    exact hps.unique hqs

/-- Nothing has been paid on a new invoice. -/
theorem paid_of_create {f : InvoiceFields} {today : Date} {fresh : Fresh}
    (h : create f today fresh = .ok inv) : inv.paid.amount.signedCents = 0 := by
  obtain ⟨-, -, -, -, -, -, hpaid, -⟩ := restore_new (create_eq_ok h).1
  rw [Invoice.paid, hpaid]
  rfl

/-- Payments are conserved. On an invoice that has been made anew, what has been paid is the sum of
the accepted payments; it never decreases, and only payments change it. On any invoice that awaits
payments, two orders of the same payments lead to the same amount paid, state and balance if each
is accepted in full. -/
theorem payments_conserved :
    (∀ (f : InvoiceFields) (today : Date) (fresh : Fresh) (inv : Invoice),
      create f today fresh = .ok inv → ∀ steps : List Step,
        (inv.run steps).paid.amount.signedCents = inv.acceptedCents steps ∧
        (∀ more, (inv.run steps).paid.amount.signedCents ≤
          (inv.run (steps ++ more)).paid.amount.signedCents) ∧
        (∀ s : Step, s.command.isPayment = false →
          ((inv.run steps).after s).paidAmount = (inv.run steps).paidAmount)) ∧
    (∀ (inv : Invoice) (ps qs : List Step), inv.status.isPayable = true →
      (∀ s ∈ ps, s.command.isPayment = true) → ps.Perm qs →
      inv.acceptsAll ps = true → inv.acceptsAll qs = true →
        (inv.run ps).paidAmount = (inv.run qs).paidAmount ∧
        (inv.run ps).status = (inv.run qs).status ∧
        (inv.run ps).balanceDue = (inv.run qs).balanceDue) := by
  constructor
  · intro f today fresh inv h steps
    refine ⟨?_, paid_run_le inv steps, fun s hs => paidAmount_after hs⟩
    rw [paid_run, paid_of_create h, zero_add]
  · intro inv ps qs _ payments perm hps hqs
    exact run_perm perm payments hps hqs

/-- The sample invoice is paid in two parts, in both orders. -/
theorem payments_conserved_sample :
    (sample.run sampleSending).status = .sent ∧
      (sample.run (sampleSending ++ [samplePayment, sampleRest])).paid.amount.signedCents = 1000 ∧
      ((sample.run sampleSending).run [samplePayment, sampleRest]).paidAmount =
        ((sample.run sampleSending).run [sampleRest, samplePayment]).paidAmount := by
  have hsum := (payments_conserved.1 _ _ _ _ create_sample
    (sampleSending ++ [samplePayment, sampleRest])).1
  have horder := payments_conserved.2 (sample.run sampleSending) [samplePayment, sampleRest]
    [sampleRest, samplePayment] (by decide +kernel) (by decide) (List.Perm.swap _ _ _)
    (by decide +kernel) (by decide +kernel)
  refine ⟨by decide +kernel, ?_, horder.1⟩
  rw [hsum]
  decide +kernel

end Invoice

end Billing
