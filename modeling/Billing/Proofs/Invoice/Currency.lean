import Billing.Proofs.Invoice.Creation
import Billing.Proofs.Invoice.Run
import Billing.Proofs.Money.Sum

set_option autoImplicit false

/-! # Invoices are in one currency

The items of an invoice and what has been paid on it are in the currency of the invoice. This is
checked when an invoice is made, and every command keeps it so (`OneCurrency.run`).
-/

namespace Billing.Invoice

/-- Items and payments of an invoice are in its own currency. -/
structure OneCurrency (inv : Invoice) : Prop where
  items : ∀ i ∈ inv.items, i.unitPrice.currency = inv.currency
  paid : ∀ m, inv.paidAmount = some m → m.currency = inv.currency

variable {f : InvoiceFields} {r : InvoiceRecord} {fresh : Fresh} {clock : Moment}
  {inv after : Invoice} {command : Command} {result : Option LineItem}

theorem oneCurrency_of_restore (h : restore f r fresh = .ok inv) : inv.OneCurrency := by
  obtain ⟨_, _, _, currency, _, _, _, _, -, -, -, -, -, -, -, hitems, hpaid, -, rfl⟩ :=
    restore_eq_ok_iff.1 h
  exact ⟨hitems, hpaid⟩

theorem OneCurrency.paid_currency (h : inv.OneCurrency) : inv.paid.currency = inv.currency := by
  unfold Invoice.paid
  cases hpaid : inv.paidAmount with
  | none => rfl
  | some m => exact h.paid m hpaid

theorem currency_of_change (h : Change clock inv command result after) :
    after.currency = inv.currency := by
  induction h with
  | markAsPaid _ _ _ ih => exact ih
  | _ => rfl

/-- The items that a command leaves are those that were there, or have been checked. -/
theorem itemCurrency_of_change (hitems : ∀ i ∈ inv.items, i.unitPrice.currency = inv.currency)
    (h : Change clock inv command result after) :
    ∀ i ∈ after.items, i.unitPrice.currency = after.currency := by
  induction h with
  | addItem _ currency _ =>
      intro i hi
      rcases List.mem_append.1 hi with hi | hi
      · exact hitems i hi
      · obtain rfl := List.mem_singleton.1 hi
        exact currency
  | removeItem =>
      intro i hi
      exact hitems i (List.eraseP_sublist.subset hi)
  | updateItem _ found checked =>
      intro i hi
      -- an updated item keeps its currency
      rcases mem_replaceItem hi with rfl | hi
      · exact (patched_eq_ok (hitems _ (List.mem_of_find?_eq_some found)) checked).2
      · exact hitems i hi
  | markAsPaid _ _ _ ih => exact ih
  | _ => exact hitems

theorem OneCurrency.change (h : inv.OneCurrency) (hchange : Change clock inv command result after) :
    after.OneCurrency := by
  refine ⟨itemCurrency_of_change h.items hchange, ?_⟩
  induction hchange with
  | recordPayment _ _ _ sum _ _ =>
      intro m hm
      obtain rfl := Option.some.inj hm
      exact (Money.add_eq_ok_iff.1 sum).2.1.trans h.paid_currency
  | markAsPaid _ _ _ ih => exact ih
  | _ => exact h.paid

theorem OneCurrency.run (h : inv.OneCurrency) (steps : List Step) : (inv.run steps).OneCurrency :=
  run_induction h OneCurrency.change

end Billing.Invoice
