import Billing.Money.Arithmetic
import Billing.Proofs.Except

set_option autoImplicit false

/-! # Comparing money

Money of one currency is compared by its amount in cents, with the sign; money of two currencies is
not compared.
-/

namespace Billing.Money

variable {a b : Money} {pairing : Pairing}

theorem requireSame_eq_ok_iff : requireSame pairing a b = .ok () ↔ a.currency = b.currency := by
  unfold requireSame
  split <;> simp_all

theorem requireSame_of_eq (h : a.currency = b.currency) : requireSame pairing a b = .ok () :=
  requireSame_eq_ok_iff.2 h

theorem requireSame_of_ne (h : a.currency ≠ b.currency) :
    requireSame pairing a b =
      .error (.broken (.differentCurrencies pairing a.currency b.currency)) :=
  if_neg h

theorem equals_eq_ok_iff {r : Bool} :
    a.equals b = .ok r ↔
      a.currency = b.currency ∧ r = decide (a.amount.signedCents = b.amount.signedCents) := by
  by_cases h : a.currency = b.currency
  · simp [equals, requireSame_of_eq h, h, Bool.beq_eq_decide_eq, eq_comm]
  · simp [equals, requireSame_of_ne h, h]

theorem isLessThan_eq_ok_iff {r : Bool} :
    a.isLessThan b = .ok r ↔
      a.currency = b.currency ∧ r = decide (a.amount.signedCents < b.amount.signedCents) := by
  by_cases h : a.currency = b.currency
  · simp [isLessThan, requireSame_of_eq h, h, eq_comm]
  · simp [isLessThan, requireSame_of_ne h, h]

end Billing.Money
