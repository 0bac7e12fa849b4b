import Billing.Proofs.Invoice.Run

set_option autoImplicit false

/-! # The life of an invoice goes forward

Every command that succeeds leaves the state of an invoice or moves it to one that may follow
(`Invoice.status_of_change`), and that one has a higher rank unless part payments follow each other
(`Status.rank`). So an invoice never goes back. Its items are closed when it is no draft any more
(`Invoice.frozen_of_change`), and each moment of its life is written on the way into one state
(`Milestone.status`), which is entered once. The main statement is `Invoice.life_goes_forward`.
-/

namespace Billing

namespace Status

/-- How far an invoice has come. A paid and an overpaid invoice have come equally far. -/
def rank : Status → Nat
  | draft => 0
  | finalized => 1
  | sent => 2
  | partiallyPaid => 3
  | paid => 4
  | overpaid => 4
  | void => 5

theorem rank_le_of_mem_next {s t : Status} (h : t ∈ s.next) : s.rank ≤ t.rank := by
  revert h
  cases s <;> cases t <;> decide

theorem rank_pos_iff {s : Status} : 0 < s.rank ↔ s ≠ draft := by
  cases s <;> decide

/-- Payments are only taken before an invoice is paid. -/
theorem rank_lt_of_isPayable {s : Status} (h : s.isPayable = true) : s.rank < paid.rank := by
  revert h
  cases s <;> decide

theorem rank_lt_of_ne_void {s : Status} (h : s ≠ void) : s.rank < void.rank := by
  revert h
  cases s <;> decide

theorem void_mem_next {s : Status} (unvoided : s ≠ void) (unpaid : s ≠ paid) : void ∈ s.next := by
  revert unvoided unpaid
  cases s <;> decide

end Status

/-! ## Moments of a life -/

/-- What is remembered of the life of an invoice. -/
inductive Milestone where
  | finalized | sent | paid | voided

namespace Milestone

/-- The moment that an invoice has recorded. -/
def of (e : Milestone) (inv : Invoice) : Option Moment :=
  match e with
  | finalized => inv.finalizedAt
  | sent => inv.sentAt
  | paid => inv.paidAt
  | voided => inv.voidedAt

/-- The invoice as if it had another moment recorded. -/
def record (e : Milestone) (moment : Option Moment) (inv : Invoice) : Invoice :=
  match e with
  | finalized => { inv with finalizedAt := moment }
  | sent => { inv with sentAt := moment }
  | paid => { inv with paidAt := moment }
  | voided => { inv with voidedAt := moment }

/-- The state that an invoice enters when the moment is written. -/
def status : Milestone → Status
  | finalized => .finalized
  | sent => .sent
  | paid => .paid
  | voided => .void

@[simp] theorem of_record (e : Milestone) (moment : Option Moment) (inv : Invoice) :
    e.of (e.record moment inv) = moment := by
  cases e <;> rfl

@[simp] theorem status_record (e : Milestone) (moment : Option Moment) (inv : Invoice) :
    (e.record moment inv).status = inv.status := by
  cases e <;> rfl

@[simp] theorem record_record (e : Milestone) (first second : Option Moment) (inv : Invoice) :
    e.record second (e.record first inv) = e.record second inv := by
  cases e <;> rfl

@[simp] theorem record_of (e : Milestone) (inv : Invoice) : e.record (e.of inv) inv = inv := by
  cases e <;> rfl

end Milestone

namespace Invoice

variable {clock : Moment} {inv after : Invoice} {command : Command} {result : Option LineItem}
  {s : Step} {steps : List Step} {e : Milestone}

/-! ## One command -/

theorem status_of_change (h : Change clock inv command result after) :
    after.status = inv.status ∨ after.status ∈ inv.status.next := by
  induction h with
  | addItem | removeItem | updateItem => exact .inl rfl
  | finalize draft =>
      rw [draft]
      exact .inr List.mem_cons_self
  | send finalized =>
      rw [finalized]
      exact .inr List.mem_cons_self
  | recordPayment payable _ _ _ _ settled => exact .inr (settledStatus_mem_next settled payable)
  | markAsPaid _ _ _ ih => exact ih
  | void unvoided unpaid => exact .inr (Status.void_mem_next unvoided unpaid)

theorem rank_le_of_change (h : Change clock inv command result after) :
    inv.status.rank ≤ after.status.rank := by
  rcases status_of_change h with hsame | hnext
  · exact (congrArg Status.rank hsame).ge
  · exact Status.rank_le_of_mem_next hnext

/-- The items of an invoice that is no draft are not touched any more. -/
theorem frozen_of_change (h : Change clock inv command result after) (hne : inv.status ≠ .draft) :
    after.items = inv.items ∧ after.currency = inv.currency := by
  induction h with
  | addItem draft | removeItem draft | updateItem draft => exact absurd draft hne
  | markAsPaid _ _ _ ih => exact ih
  | _ => exact ⟨rfl, rfl⟩

/-- Nothing can be done with an invoice that is paid or void. -/
theorem not_change_of_closed (hclosed : inv.status = .paid ∨ inv.status = .void) :
    ¬ Change clock inv command result after := by
  -- the state that a command asks for is neither of the two
  have hother {s : Status} (hs : inv.status = s) (hpaid : s ≠ .paid) (hvoid : s ≠ .void) : False :=
    hclosed.elim (fun h => hpaid (hs.symm.trans h)) fun h => hvoid (hs.symm.trans h)
  intro h
  induction h with
  | addItem draft | removeItem draft | updateItem draft | finalize draft =>
      exact hother draft (by decide) (by decide)
  | send finalized => exact hother finalized (by decide) (by decide)
  | recordPayment payable =>
      rcases hclosed with hpaid | hvoid
      · rw [hpaid] at payable
        cases payable
      · rw [hvoid] at payable
        cases payable
  | markAsPaid _ _ _ ih => exact ih
  | void unvoided unpaid => exact hclosed.elim unpaid unvoided

/-- A command that changes a moment moves the invoice to the state of that moment, from one in which
it has not come as far. -/
theorem enters_of_change (h : Change clock inv command result after) (hne : e.of after ≠ e.of inv) :
    inv.status.rank < e.status.rank ∧ after.status = e.status := by
  induction h with
  | addItem | removeItem | updateItem => cases e <;> exact absurd rfl hne
  | finalize draft =>
      cases e with
      | finalized => exact ⟨by rw [draft]; decide, rfl⟩
      | _ => exact absurd rfl hne
  | send finalized =>
      cases e with
      | sent => exact ⟨by rw [finalized]; decide, rfl⟩
      | _ => exact absurd rfl hne
  | @recordPayment _ _ _ target _ payable =>
      cases e with
      | paid =>
          -- the moment of payment is only written when nothing is due any more
          by_cases hpaid : target = .paid
          · exact ⟨Status.rank_lt_of_isPayable payable, hpaid⟩
          · exact absurd (if_neg hpaid) hne
      | _ => exact absurd rfl hne
  | markAsPaid _ _ _ ih => exact ih hne
  | void unvoided =>
      cases e with
      | voided => exact ⟨Status.rank_lt_of_ne_void unvoided, rfl⟩
      | _ => exact absurd rfl hne

/-- No command looks at the moments that are recorded. -/
theorem change_record (e : Milestone) (moment : Option Moment)
    (h : Change clock inv command result after) :
    ∃ after', Change clock (e.record moment inv) command result after' ∧
      after'.status = after.status := by
  induction h with
  | addItem draft currency fresh =>
      cases e <;> exact ⟨_, .addItem draft currency fresh, rfl⟩
  | removeItem draft found => cases e <;> exact ⟨_, .removeItem draft found, rfl⟩
  | updateItem draft found checked => cases e <;> exact ⟨_, .updateItem draft found checked, rfl⟩
  | finalize draft items => cases e <;> exact ⟨_, .finalize draft items, rfl⟩
  | send finalized => cases e <;> exact ⟨_, .send finalized, rfl⟩
  | recordPayment payable currency positive sum total_eq settled =>
      cases e <;> exact ⟨_, .recordPayment payable currency positive sum total_eq settled, rfl⟩
  | markAsPaid total_eq exact _ ih =>
      obtain ⟨after', hchange, hstatus⟩ := ih
      cases e <;> exact ⟨after', .markAsPaid total_eq exact hchange, hstatus⟩
  | void unvoided unpaid reason_eq => cases e <;> exact ⟨_, .void unvoided unpaid reason_eq, rfl⟩

/-! ## Runs -/

theorem totals_congr {inv inv' : Invoice} (hitems : inv.items = inv'.items)
    (hcurrency : inv.currency = inv'.currency) :
    inv.subtotal = inv'.subtotal ∧ inv.totalTax = inv'.totalTax ∧ inv.total = inv'.total := by
  simp only [total, subtotal, totalTax, sumOf, hitems, hcurrency, and_self]

theorem rank_le_run (inv : Invoice) (steps : List Step) :
    inv.status.rank ≤ (inv.run steps).status.rank :=
  run_induction (P := fun after => inv.status.rank ≤ after.status.rank) (Nat.le_refl _)
    fun h hchange => h.trans (rank_le_of_change hchange)

/-- An invoice that is no draft keeps its items in every run. -/
theorem frozen_run (hne : inv.status ≠ .draft) (steps : List Step) :
    (inv.run steps).status ≠ .draft ∧ (inv.run steps).items = inv.items ∧
      (inv.run steps).currency = inv.currency :=
  run_induction
    (P := fun after =>
      after.status ≠ .draft ∧ after.items = inv.items ∧ after.currency = inv.currency)
    ⟨hne, rfl, rfl⟩ fun h hchange => by
      obtain ⟨hstatus, hitems, hcurrency⟩ := h
      obtain ⟨hitems', hcurrency'⟩ := frozen_of_change hchange hstatus
      have hrank := (Status.rank_pos_iff.2 hstatus).trans_le (rank_le_of_change hchange)
      exact ⟨Status.rank_pos_iff.1 hrank, hitems'.trans hitems, hcurrency'.trans hcurrency⟩

/-- The steps of a run, each with the invoice that it finds. -/
def turns : Invoice → List Step → List (Invoice × Step)
  | _, [] => []
  | inv, s :: steps => (inv, s) :: (inv.after s).turns steps

/-- A step writes a moment: not every recorded moment would be the same after it. -/
def Writes (inv : Invoice) (s : Step) (e : Milestone) : Prop :=
  ∃ recorded, e.of ((e.record recorded inv).after s) ≠ recorded

/-- A step that writes a moment is one in which the invoice enters the state of that moment. -/
theorem Writes.enters (h : inv.Writes s e) :
    inv.status.rank < e.status.rank ∧ (inv.after s).status = e.status := by
  obtain ⟨recorded, hne⟩ := h
  cases haccepts : (e.record recorded inv).accepts s with
  | false =>
      rw [after_of_not_accepts haccepts, Milestone.of_record] at hne
      exact absurd rfl hne
  | true =>
      obtain ⟨result, hchange⟩ := change_of_accepts haccepts
      obtain ⟨hrank, hstatus⟩ := enters_of_change hchange (by rwa [Milestone.of_record])
      rw [Milestone.status_record] at hrank
      -- the step does the same to the invoice with the moment that it has in fact
      obtain ⟨after, hchange', hsame⟩ := change_record e (e.of inv) hchange
      rw [Milestone.record_record, Milestone.record_of] at hchange'
      rw [(accepts_of_change hchange').2, hsame]
      exact ⟨hrank, hstatus⟩

theorem rank_le_of_mem_turns {turn : Invoice × Step} (h : turn ∈ inv.turns steps) :
    inv.status.rank ≤ turn.1.status.rank := by
  induction steps generalizing inv with
  | nil => cases h
  | cons s steps ih =>
      rcases List.mem_cons.1 h with rfl | h
      · exact Nat.le_refl _
      · exact (rank_le_run inv [s]).trans (ih h)

/-- In every run, each moment is written by one step at most. -/
theorem pairwise_writes (inv : Invoice) (steps : List Step) (e : Milestone) :
    (inv.turns steps).Pairwise fun a b => ¬ (a.1.Writes a.2 e ∧ b.1.Writes b.2 e) := by
  induction steps generalizing inv with
  | nil => exact .nil
  | cons s steps ih =>
      refine .cons (fun turn hturn => ?_) (ih _)
      rintro ⟨hfirst, hsecond⟩
      -- the second step would enter a state in which the invoice has been before
      have hbefore : turn.1.status.rank < e.status.rank := hsecond.enters.1
      have hafter : e.status.rank ≤ turn.1.status.rank := calc
        e.status.rank = (inv.after s).status.rank := by rw [hfirst.enters.2]
        _ ≤ turn.1.status.rank := rank_le_of_mem_turns hturn
      omega

/-- What a new invoice has recorded of its life at some time is never recorded differently. -/
theorem recorded_run_of_create {f : InvoiceFields} {today : Date} {fresh : Fresh}
    (h : create f today fresh = .ok inv) {moment : Moment} {done : List Step}
    (hmoment : e.of (inv.run done) = some moment) (steps : List Step) :
    e.of (inv.run (done ++ steps)) = some moment := by
  obtain ⟨-, -, hfin, hsent, hpaid, hvoid, -⟩ := restore_new (create_eq_ok h).1
  -- a moment that is recorded has its state behind it, which is then not entered again
  have hentered : e.of (inv.run done) ≠ none → e.status.rank ≤ (inv.run done).status.rank :=
    run_induction (P := fun after => e.of after ≠ none → e.status.rank ≤ after.status.rank)
      (fun hne => absurd (by cases e <;> assumption) hne)
      fun {_ mid _ _ after} hbefore hchange hne => by
        by_cases hsame : e.of after = e.of mid
        · exact (hbefore (hsame ▸ hne)).trans (rank_le_of_change hchange)
        · exact (congrArg Status.rank (enters_of_change hchange hsame).2).ge
  have hkept : e.of ((inv.run done).run steps) = some moment ∧
      e.status.rank ≤ ((inv.run done).run steps).status.rank := by
    refine run_induction
      (P := fun after => e.of after = some moment ∧ e.status.rank ≤ after.status.rank)
      ⟨hmoment, hentered (by simp [hmoment])⟩ fun {_ mid _ _ after} hbefore hchange => ?_
    have hsame : e.of after = e.of mid := by
      by_contra hne
      exact absurd (enters_of_change hchange hne).1 (not_lt.2 hbefore.2)
    exact ⟨hsame.trans hbefore.1, hbefore.2.trans (rank_le_of_change hchange)⟩
  rw [run_append]
  exact hkept.1

/-- The life of an invoice goes forward, whatever state it is in. A command that succeeds leaves its
state or moves it to one that may follow. Once it is no draft it is never a draft again, and its
items and totals stay as they are. All commands are refused when it is paid or void. And a run
writes each moment of its life at most once. -/
theorem life_goes_forward (inv : Invoice) :
    (∀ clock command result after, (apply clock command).on inv = (.ok result, after) →
      after.status = inv.status ∨ after.status ∈ inv.status.next) ∧
    (∀ done steps, (inv.run done).status ≠ .draft →
      (inv.run (done ++ steps)).status ≠ .draft ∧
        (inv.run (done ++ steps)).items = (inv.run done).items ∧
        (inv.run (done ++ steps)).subtotal = (inv.run done).subtotal ∧
        (inv.run (done ++ steps)).totalTax = (inv.run done).totalTax ∧
        (inv.run (done ++ steps)).total = (inv.run done).total) ∧
    (inv.status = .paid ∨ inv.status = .void →
      ∀ clock command, ∃ e, (apply clock command).on inv = (.error e, inv)) ∧
    ∀ steps e,
      (inv.turns steps).Pairwise fun a b => ¬ (a.1.Writes a.2 e ∧ b.1.Writes b.2 e) := by
  refine ⟨?_, ?_, ?_, pairwise_writes inv⟩
  · intro clock command result after h
    exact status_of_change (apply_eq_ok_iff.1 h)
  · intro done steps hne
    rw [run_append]
    obtain ⟨hstatus, hitems, hcurrency⟩ := frozen_run hne steps
    exact ⟨hstatus, hitems, totals_congr hitems hcurrency⟩
  · intro hclosed clock command
    cases h : (apply clock command).on inv with
    | mk r after =>
        cases r with
        | ok result => exact absurd (apply_eq_ok_iff.1 h) (not_change_of_closed hclosed)
        | error e => exact ⟨e, by rw [apply_atomic clock command inv e after h]⟩

/-- The sample invoice is finalized and sent, keeps its items while it is paid in two parts, and
cannot be sent once more after that. -/
theorem life_goes_forward_sample :
    (∃ after, (apply sampleAbroad (.send none)).on (sample.run sampleFinalizedAbroad) =
        (.ok none, after) ∧ after.status ∈ Status.next .finalized) ∧
      (sample.run (sampleSending ++ [samplePayment, sampleRest])).items =
        (sample.run sampleSending).items ∧
      ∃ e, (apply sampleAbroad (.send none)).on
          (sample.run (sampleSending ++ [samplePayment, sampleRest])) =
        (.error e, sample.run (sampleSending ++ [samplePayment, sampleRest])) := by
  refine ⟨⟨_, Prod.ext (by decide +kernel) rfl, ?_⟩, ?_, ?_⟩
  · have hnext := (life_goes_forward (sample.run sampleFinalizedAbroad)).1 sampleAbroad (.send none)
      none _ (Prod.ext (by decide +kernel) rfl)
    exact hnext.resolve_left (by decide +kernel)
  · have hsent : (sample.run sampleSending).status ≠ .draft := by decide +kernel
    exact ((life_goes_forward sample).2.1 sampleSending _ hsent).2.1
  · have hpaid : (sample.run (sampleSending ++ [samplePayment, sampleRest])).status = .paid := by
      decide +kernel
    exact (life_goes_forward _).2.2.1 (.inl hpaid) sampleAbroad (.send none)

end Invoice

end Billing
