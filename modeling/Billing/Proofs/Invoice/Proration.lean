import Billing.Invoice.Proration
import Billing.Proofs.Except
import Billing.Proofs.Invoice.Change

set_option autoImplicit false

/-! # What a proration does

All that a proration does to an invoice is to read it. The number of the new invoice is obtained
after everything else has been checked, and it is used up even if the new invoice cannot be made
(`Invoice.on_prorate`).
-/

namespace Billing.Invoice

open Procedure

/-- Whether an invoice can be prorated is found out by reading it. -/
theorem on_checkProration (start finish : Given) (today : Date) (inv : Invoice) :
    (checkProration start finish today).on inv =
      (inv.proratedItems start finish (Fresh.following 0) >>= fun _ =>
        requireFuture inv.dueDate today, inv) := by
  rw [checkProration, on_get_bind, on_lift_bind]
  cases inv.proratedItems start finish (Fresh.following 0) with
  | error e => rfl
  | ok items => cases requireFuture inv.dueDate today <;> rfl

/-- A proration reads the invoice. What is wrong with it is found before a number is obtained; the
new invoice is then made under that number. -/
theorem on_prorate (start finish : Given) (numbering : Numbering InvoiceNumber) (today : Date)
    (fresh : Fresh) (inv : Invoice) (c : Counter) :
    (prorate start finish numbering today fresh).on inv c =
      match inv.proratedItems start finish fresh, requireFuture inv.dueDate today with
      | .ok items, .ok _ =>
          ((do
              let number ← (numbering.on c).1
              let draft ← create (inv.prorationFields start finish number) today fresh
              draft.withItems items, inv), (numbering.on c).2)
      | .ok _, .error e => ((.error e, inv), c)
      | .error e, _ => ((.error e, inv), c) := by
  rw [Prorating.on, prorate, on_get_bind]
  simp only [on_lift_bind]
  cases inv.proratedItems start finish fresh with
  | error e => rfl
  | ok items =>
      cases requireFuture inv.dueDate today with
      | error e => rfl
      | ok _ =>
          simp only [Prorating.number, on_bind, on_onPart]
          cases numbering.on c with
          | mk r c =>
              cases r with
              | error e => rfl
              | ok number =>
                  simp only [Except.ok_bind]
                  cases create (inv.prorationFields start finish number) today fresh with
                  | error e => rfl
                  | ok draft => cases draft.withItems items <;> rfl

/-! ## Items that go into a new invoice -/

section Items

variable {inv after : Invoice} {item : LineItem} {items : List LineItem}

/-- The moment does not matter when an item is added. -/
theorem change_of_addItem (clock : Moment) (h : (addItem item).result inv = .ok after) :
    Change clock inv (.addItem item) none after := by
  obtain ⟨u, hon⟩ := Edit.on_of_result h
  exact addItem_eq_ok_iff.1 hon

theorem withItems_cons (inv : Invoice) (item : LineItem) (items : List LineItem) :
    inv.withItems (item :: items) = (addItem item).result inv >>= fun inv => inv.withItems items :=
  rfl

/-- What is kept when an item is added is kept when items are. -/
theorem withItems_induction {P : Invoice → Prop} (clock : Moment)
    (step : ∀ {inv item mid}, Change clock inv (.addItem item) none mid → P inv → P mid)
    (h : P inv) (hitems : inv.withItems items = .ok after) : P after := by
  induction items generalizing inv with
  | nil =>
      obtain rfl := Except.ok.inj hitems
      exact h
  | cons item items ih =>
      rw [withItems_cons] at hitems
      obtain ⟨mid, hadd, hrest⟩ := Except.bind_eq_ok_iff.1 hitems
      exact ih (step (change_of_addItem clock hadd) h) hrest

end Items

end Billing.Invoice
