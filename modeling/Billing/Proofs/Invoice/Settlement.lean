import Billing.Proofs.Invoice.Consistency
import Billing.Proofs.Invoice.Payments
import Billing.Proofs.Invoice.Totals

set_option autoImplicit false

/-! # Settling an invoice

A payment of the balance settles an invoice that awaits payment, if there is anything to pay at all:
an invoice may be sent although its total is zero or cannot be computed (`Invoice.Owed`). An invoice
that is partially paid is always owed (`Invoice.settled_by_balance`). A payment of the total settles
an invoice on which nothing has been paid, and overpays any other (`Invoice.settled_by_total`).
-/

namespace Billing.Invoice

variable {f : InvoiceFields} {today : Date} {fresh : Fresh} {clock : Moment}
  {inv after : Invoice} {total balance amount : Money} {now : Option Moment}
  {result : Option LineItem}

/-- There is something to pay for an invoice. -/
def Owed (inv : Invoice) : Prop := ∃ total, inv.total = .ok total ∧ total.isPositive = true

/-- A payment of the balance is accepted and settles the invoice: it is paid in full, and nothing is
due any more. -/
def SettledByBalance (inv : Invoice) (clock : Moment) (now : Option Moment) : Prop :=
  ∃ balance total after, inv.balanceDue = .ok balance ∧ inv.total = .ok total ∧
    (apply clock (.recordPayment (.money balance) now)).on inv = (.ok none, after) ∧
    after.status = .paid ∧ after.paidAmount = some total ∧ after.total = .ok total ∧
    after.paidAt = some (now.getD clock) ∧ after.balanceDue = .ok (Money.zero inv.currency)

/-- What has been paid on an invoice that awaits payment is less than what it costs. -/
theorem Consistent.paid_lt_total (h : inv.Consistent) (payable : inv.status.isPayable = true)
    (total_eq : inv.total = .ok total) (positive : total.isPositive = true) :
    inv.paid.currency = total.currency ∧
      inv.paid.amount.signedCents < total.amount.signedCents := by
  rcases Status.isPayable_iff.1 payable with hsent | hpartially
  · have hnone := h.unpaid (by simp [hsent])
    have hpaid : inv.paid = Money.zero inv.currency := by rw [Invoice.paid, hnone, Option.getD_none]
    rw [hpaid]
    exact ⟨(itemSums_of_total total_eq).1.symm, Money.isPositive_iff.1 positive⟩
  · obtain ⟨paid, total', hpaid, htotal, hcurrency, -, hlt⟩ := h.partiallyPaid hpartially
    obtain rfl := Except.ok.inj (htotal.symm.trans total_eq)
    rw [Invoice.paid, hpaid, Option.getD_some]
    exact ⟨hcurrency, hlt⟩

theorem Consistent.owed_of_partiallyPaid (h : inv.Consistent)
    (hpartially : inv.status = .partiallyPaid) : inv.Owed := by
  obtain ⟨paid, total, -, htotal, -, hpos, hlt⟩ := h.partiallyPaid hpartially
  exact ⟨total, htotal, Money.isPositive_iff.2 (hpos.trans hlt)⟩

/-- If there is something to pay, the balance settles the invoice. -/
theorem Consistent.settledByBalance (h : inv.Consistent) (payable : inv.status.isPayable = true)
    (owed : inv.Owed) (clock : Moment) (now : Option Moment) : inv.SettledByBalance clock now := by
  obtain ⟨total, total_eq, positive⟩ := owed
  obtain ⟨hcurrency, hlt⟩ := h.paid_lt_total payable total_eq positive
  have hinv : total.currency = inv.currency := (itemSums_of_total total_eq).1
  obtain ⟨balance, hbalance, hbalanceCurrency, hcents⟩ :=
    Money.exists_subtract_eq_ok hcurrency.symm (h.paid_nonneg payable) hlt.le
  have hsum : inv.paid.add balance = .ok total :=
    Money.add_eq_ok_of_positive (hcurrency.trans hbalanceCurrency.symm) hcurrency.symm (by omega)
      (Money.isPositive_iff.1 positive)
  have hsettled : settledStatus total total = .ok .paid :=
    settledStatus_eq_ok_iff.2 ⟨rfl, by simp⟩
  have hchange : Change clock inv (.recordPayment (.money balance) now) none _ :=
    .recordPayment payable (hbalanceCurrency.trans hinv) (Money.isPositive_iff.2 (by omega)) hsum
      total_eq hsettled
  refine ⟨balance, total, _, ?_, total_eq, apply_eq_ok_iff.2 hchange, rfl, rfl, total_eq,
    rfl, ?_⟩
  · rw [balanceDue, total_eq]
    exact hbalance
  · -- the total is the same as before
    show (inv.total >>= fun m => m.subtract total) = _
    rw [total_eq, ← hinv]
    exact Money.subtract_self total

/-- A balance that settles an invoice is above zero, and so is the total that it is a part of. -/
theorem Consistent.owed_of_settledByBalance (h : inv.Consistent)
    (payable : inv.status.isPayable = true) (settled : inv.SettledByBalance clock now) :
    inv.Owed := by
  obtain ⟨balance, total, after, hbalance, total_eq, hpay, -⟩ := settled
  refine ⟨total, total_eq, Money.isPositive_iff.2 ?_⟩
  have hpaid := h.paid_nonneg payable
  have hpositive : 0 < balance.amount.signedCents := by
    cases apply_eq_ok_iff.1 hpay with
    | recordPayment _ _ positive => exact Money.isPositive_iff.1 positive
  rw [balanceDue, total_eq] at hbalance
  obtain ⟨-, -, hcents, -⟩ := Money.subtract_eq_ok_iff.1 hbalance
  rw [Amount.signedCents_opposite] at hcents
  omega

/-- An invoice that awaits payment is settled by a payment of its balance, at any time in its life.
The only exceptions are invoices that have been sent, but not been paid in part, while their total
is zero or cannot be computed. -/
theorem settled_by_balance (steps : List Step) (clock : Moment) (now : Option Moment)
    (h : create f today fresh = .ok inv) (payable : (inv.run steps).status.isPayable = true) :
    ((inv.run steps).status = .sent → (inv.run steps).Owed) ↔
      (inv.run steps).SettledByBalance clock now := by
  have hconsistent := consistent_run steps h
  constructor
  · intro howed
    rcases Status.isPayable_iff.1 payable with hsent | hpartially
    · exact hconsistent.settledByBalance payable (howed hsent) clock now
    · exact hconsistent.settledByBalance payable (hconsistent.owed_of_partiallyPaid hpartially)
        clock now
  · intro hsettled _
    exact hconsistent.owed_of_settledByBalance payable hsettled

/-- A payment of 4.00 USD of 10.00 USD leaves a balance that settles the sample invoice. -/
theorem settled_by_balance_sample :
    create sampleFields sampleDay (.following 0) = .ok sample ∧
      (sample.run (sampleSending ++ [samplePayment])).status.isPayable = true ∧
      (sample.run (sampleSending ++ [samplePayment])).SettledByBalance sampleAbroad none := by
  have hpartially : (sample.run (sampleSending ++ [samplePayment])).status = .partiallyPaid := by
    decide +kernel
  refine ⟨create_sample, by rw [hpartially]; rfl, ?_⟩
  refine (settled_by_balance _ sampleAbroad none create_sample (by rw [hpartially]; rfl)).1 ?_
  rw [hpartially]
  exact nofun

/-- The sample invoice is sent over a quantity at a price. -/
def sampleSendingOf (quantity : Decimal) (price : Amount)
    (quantity_pos : quantity.isPositive = true) (quantity_readable : quantity.readable = true)
    (price_pos : price.isPositive = true) : List Step :=
  [sampleStep (.addItem { LineItem.sample with
      quantity, quantity_pos, quantity_readable
      unitPrice := ⟨price, .usd⟩
      unitPrice_pos := price_pos }),
    sampleStep (.finalize none), sampleStep (.send none)]

/-- A thousandth of a piece at 0.01 USD comes to nothing. -/
def sampleGift : List Step :=
  sampleSendingOf ⟨false, 1, -3⟩ ⟨false, 1, by decide⟩ (by decide) (by decide +kernel) (by decide)

/-- 10^30 pieces at 1.00 USD come to more than amounts can hold. -/
def sampleFortune : List Step :=
  sampleSendingOf ⟨false, 1, 30⟩ ⟨false, 100, by decide⟩ (by decide) (by decide +kernel) (by decide)

/-- Both invoices are sent. The balance of the first is 0.00, a payment of which is refused, and the
second has no balance. -/
theorem sent_but_not_settled :
    create sampleFields sampleDay (.following 0) = .ok sample ∧
      ((sample.run sampleGift).status = .sent ∧
        (sample.run sampleGift).balanceDue = .ok (Money.zero .usd) ∧
        (apply sampleAbroad (.recordPayment (.money (Money.zero .usd)) none)).on
          (sample.run sampleGift) = (.error (.broken .payPositive), sample.run sampleGift)) ∧
      (sample.run sampleFortune).status = .sent ∧
        (sample.run sampleFortune).balanceDue = .error (.invalid "amount" "1.00E+30") :=
  ⟨create_sample, ⟨by decide +kernel, by decide +kernel, by decide +kernel⟩, by decide +kernel,
    by decide +kernel⟩

/-! ## Paying the total -/

/-- An invoice has been paid in full at a moment, and nothing is due. -/
def PaidInFull (inv : Invoice) (moment : Moment) : Prop :=
  inv.status = .paid ∧ inv.paidAt = some moment ∧
    (∃ total, inv.total = .ok total ∧ inv.paidAmount = some total) ∧
    inv.balanceDue = .ok (Money.zero inv.currency)

/-- A payment of the total is added to what has been paid, and the sum is compared with the total
again. -/
theorem exists_of_markAsPaid (h : Change clock inv (.markAsPaid amount now) result after) :
    ∃ paid total target, inv.status.isPayable = true ∧ inv.total = .ok total ∧
      0 < total.amount.signedCents ∧
      paid.amount.signedCents = inv.paid.amount.signedCents + total.amount.signedCents ∧
      settledStatus paid total = .ok target ∧
      after = { inv with
        paidAmount := some paid
        status := target
        paidAt := if target = .paid then some (now.getD clock) else inv.paidAt } := by
  cases h with
  | markAsPaid total_eq exact recorded =>
      have hamount := of_decide_eq_true (Money.equals_eq_ok_iff.1 exact).2.symm
      cases recorded with
      | recordPayment payable _ positive sum total_eq' settled =>
          obtain rfl := Except.ok.inj (total_eq.symm.trans total_eq')
          refine ⟨_, _, _, payable, total_eq, ?_, ?_, settled, rfl⟩
          · rw [← hamount]
            exact Money.isPositive_iff.1 positive
          · rw [← hamount]
            exact Money.signedCents_of_add_eq_ok sum

/-- While nothing has been paid, the total is what is due. -/
theorem Consistent.paidInFull_of_markAsPaid (h : inv.Consistent) (sent : inv.status = .sent)
    (hchange : Change clock inv (.markAsPaid amount now) result after) :
    after.PaidInFull (now.getD clock) := by
  obtain ⟨paid, total, target, -, total_eq, positive, hcents, settled, rfl⟩ :=
    exists_of_markAsPaid hchange
  have hbefore : inv.paid.amount.signedCents = 0 := by
    rw [Invoice.paid, h.unpaid (by simp [sent])]
    rfl
  rw [hbefore, zero_add] at hcents
  obtain ⟨hcurrency, htarget⟩ := settledStatus_eq_ok_iff.1 settled
  rw [if_pos hcents] at htarget
  subst htarget
  obtain rfl : paid = total := Money.eq_of_positive hcurrency hcents positive
  refine ⟨rfl, rfl, ⟨paid, total_eq, rfl⟩, ?_⟩
  -- the total is the same as before
  show (inv.total >>= fun m => m.subtract paid) = _
  rw [total_eq, ← (itemSums_of_total total_eq).1]
  exact Money.subtract_self paid

/-- Once a part has been paid, the total is more than what is due. -/
theorem Consistent.overpaid_of_markAsPaid (h : inv.Consistent)
    (partially : inv.status = .partiallyPaid)
    (hchange : Change clock inv (.markAsPaid amount now) result after) :
    after.status = .overpaid ∧ ∃ total, after.total = .ok total ∧
      after.paid.amount.signedCents =
        inv.paid.amount.signedCents + total.amount.signedCents := by
  obtain ⟨paid, total, target, -, total_eq, -, hcents, settled, rfl⟩ :=
    exists_of_markAsPaid hchange
  refine ⟨?_, total, total_eq, hcents⟩
  have hbefore : 0 < inv.paid.amount.signedCents := by
    obtain ⟨before, _, hpaid, -, -, hpos, -⟩ := h.partiallyPaid partially
    rw [Invoice.paid, hpaid, Option.getD_some]
    exact hpos
  obtain ⟨-, hle⟩ | ⟨-, hlt⟩ | ⟨htarget, -⟩ := settledStatus_cases settled
  · omega
  · omega
  · exact htarget

/-- A payment of the total that is accepted settles an invoice exactly if nothing has been paid on
it before. Otherwise a part has been paid, the payment comes on top of it, and the invoice is
overpaid. -/
theorem settled_by_total (steps : List Step) (h : create f today fresh = .ok inv)
    (accepted : (apply clock (.markAsPaid amount now)).on (inv.run steps) = (.ok result, after)) :
    (after.PaidInFull (now.getD clock) ↔ (inv.run steps).status = .sent) ∧
      ((inv.run steps).status ≠ .sent →
        (inv.run steps).status = .partiallyPaid ∧ after.status = .overpaid ∧
          ∃ total, after.total = .ok total ∧
            after.paid.amount.signedCents =
              (inv.run steps).paid.amount.signedCents + total.amount.signedCents) := by
  have hconsistent := consistent_run steps h
  have hchange := apply_eq_ok_iff.1 accepted
  obtain ⟨-, -, -, payable, -⟩ := exists_of_markAsPaid hchange
  rcases Status.isPayable_iff.1 payable with sent | partially
  · exact ⟨iff_of_true (hconsistent.paidInFull_of_markAsPaid sent hchange) sent,
      fun unsent => absurd sent unsent⟩
  · obtain ⟨overpaid, hpaid⟩ := hconsistent.overpaid_of_markAsPaid partially hchange
    have unsent : (inv.run steps).status ≠ .sent := by simp [partially]
    refine ⟨iff_of_false (fun settled => ?_) unsent, fun _ => ⟨partially, overpaid, hpaid⟩⟩
    rw [settled.1] at overpaid
    cases overpaid

/-- A payment of 10.00 USD. -/
def samplePayTotal : Command := .markAsPaid ⟨⟨false, 1000, by decide⟩, .usd⟩ none

/-- A payment of all of the 10.00 USD settles the sample invoice. -/
theorem settled_by_total_sample :
    create sampleFields sampleDay (.following 0) = .ok sample ∧
      ∃ after, (apply sampleAbroad samplePayTotal).on (sample.run sampleSending) =
          (.ok none, after) ∧ after.PaidInFull sampleAbroad := by
  have accepted : ((apply sampleAbroad samplePayTotal).on (sample.run sampleSending)).1 =
      .ok none := by decide +kernel
  refine ⟨create_sample, _, Prod.ext accepted rfl, ?_⟩
  exact (settled_by_total sampleSending create_sample (Prod.ext accepted rfl)).1.2
    (by decide +kernel)

/-- After 4.00 USD have been paid, a payment of all of the 10.00 USD is accepted. The invoice is
overpaid, no moment of payment is set, and 4.00 USD are to be given back. -/
theorem overpaid_by_total :
    create sampleFields sampleDay (.following 0) = .ok sample ∧
      ((apply sampleAbroad samplePayTotal).on
        (sample.run (sampleSending ++ [samplePayment]))).1 = .ok none ∧
      ¬ ((apply sampleAbroad samplePayTotal).on
        (sample.run (sampleSending ++ [samplePayment]))).2.PaidInFull sampleAbroad ∧
      ((apply sampleAbroad samplePayTotal).on
        (sample.run (sampleSending ++ [samplePayment]))).2.status = .overpaid ∧
      ((apply sampleAbroad samplePayTotal).on
        (sample.run (sampleSending ++ [samplePayment]))).2.paidAt = none ∧
      ((apply sampleAbroad samplePayTotal).on
        (sample.run (sampleSending ++ [samplePayment]))).2.balanceDue =
          .ok ⟨⟨true, 400, by decide⟩, .usd⟩ := by
  refine ⟨create_sample, by decide +kernel, fun settled => ?_, by decide +kernel,
    by decide +kernel, by decide +kernel⟩
  exact absurd settled.1 (by decide +kernel)

end Billing.Invoice
