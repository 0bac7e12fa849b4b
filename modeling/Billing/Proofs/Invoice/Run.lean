import Billing.Proofs.Invoice.Atomic

set_option autoImplicit false

/-! # Runs of commands

A run gives one command after the other to an invoice, each at some moment, and goes on after a
command that fails. `Invoice.run_induction` is how properties of runs are proved: what every
successful command keeps holds throughout, since failed commands change nothing.
-/

namespace Billing

/-- A command given at a moment. -/
structure Step where
  clock : Moment
  command : Command

namespace Invoice

/-- Whether the command of a step succeeds. -/
def accepts (inv : Invoice) (s : Step) : Bool :=
  match ((apply s.clock s.command).on inv).1 with
  | .ok _ => true
  | .error _ => false

/-- The invoice after a step, whether its command succeeds or fails. -/
def after (inv : Invoice) (s : Step) : Invoice := ((apply s.clock s.command).on inv).2

/-- The invoice after a number of steps. -/
def run (inv : Invoice) (steps : List Step) : Invoice := steps.foldl after inv

/-- All steps of a run succeed. -/
def acceptsAll : Invoice → List Step → Bool
  | _, [] => true
  | inv, s :: steps => inv.accepts s && (inv.after s).acceptsAll steps

variable {inv : Invoice} {s : Step} {steps : List Step}

@[simp] theorem run_nil (inv : Invoice) : inv.run [] = inv := rfl

@[simp] theorem run_cons (inv : Invoice) (s : Step) (steps : List Step) :
    inv.run (s :: steps) = (inv.after s).run steps := rfl

theorem run_append (inv : Invoice) (first second : List Step) :
    inv.run (first ++ second) = (inv.run first).run second := List.foldl_append

theorem after_of_not_accepts (h : inv.accepts s = false) : inv.after s = inv := by
  unfold accepts at h
  cases hr : (apply s.clock s.command).on inv with
  | mk result mid =>
      cases result with
      | ok r =>
          rw [hr] at h
          cases h
      | error e =>
          rw [after, hr]
          exact apply_atomic s.clock s.command inv e mid hr

theorem change_of_accepts (h : inv.accepts s = true) :
    ∃ result, Change s.clock inv s.command result (inv.after s) := by
  unfold accepts at h
  cases hr : (apply s.clock s.command).on inv with
  | mk result mid =>
      cases result with
      | ok r =>
          refine ⟨r, ?_⟩
          rw [after, hr]
          exact apply_eq_ok_iff.1 hr
      | error e =>
          rw [hr] at h
          cases h

theorem accepts_of_change {clock : Moment} {command : Command} {result : Option LineItem}
    {after : Invoice} (h : Change clock inv command result after) :
    inv.accepts ⟨clock, command⟩ = true ∧ inv.after ⟨clock, command⟩ = after := by
  have hr := apply_eq_ok_iff.2 h
  simp [accepts, Invoice.after, hr]

/-- What holds at first and is kept by every successful command holds after every run. -/
theorem run_induction {P : Invoice → Prop} (start : P inv)
    (step : ∀ {clock inv command result after},
      P inv → Change clock inv command result after → P after) :
    P (inv.run steps) := by
  induction steps generalizing inv with
  | nil => exact start
  | cons s steps ih =>
      rw [run_cons]
      apply ih
      -- a command that fails leaves the invoice as it was
      cases haccepts : inv.accepts s with
      | false =>
          rw [after_of_not_accepts haccepts]
          exact start
      | true =>
          obtain ⟨result, hchange⟩ := change_of_accepts haccepts
          exact step start hchange

/-! ## A run to look at -/

/-- A step at midnight, universal time, of the day on which `Invoice.sample` is made. -/
def sampleStep (command : Command) : Step := ⟨(Moment.midnight sampleDay).atUniversal, command⟩

/-- An invoice over 10.00 USD is sent; sending it before it is finalized fails. -/
def sampleSending : List Step :=
  [sampleStep (.send none), sampleStep (.addItem .sample), sampleStep (.finalize none),
    sampleStep (.send none)]

/-- A payment of 4.00 USD. -/
def samplePayment : Step :=
  sampleStep (.recordPayment (.money ⟨⟨false, 400, by decide⟩, .usd⟩) none)

/-- A payment of 6.00 USD. -/
def sampleRest : Step :=
  sampleStep (.recordPayment (.money ⟨⟨false, 600, by decide⟩, .usd⟩) none)

/-- Midnight on a clock that is two hours ahead of universal time. -/
def sampleAbroad : Moment := ⟨sampleDay, 0, some 7200000000, by decide, by decide⟩

/-- The sample invoice is finalized abroad. -/
def sampleFinalizedAbroad : List Step :=
  [sampleStep (.addItem .sample), sampleStep (.finalize (some sampleAbroad))]

end Invoice

end Billing
