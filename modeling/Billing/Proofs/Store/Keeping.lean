import Billing.Proofs.Invoice.Reread
import Billing.Proofs.Store.Access

set_option autoImplicit false

/-! # How a repository keeps invoices

A `Keeping` says what a repository stores of an invoice and how it is read. It is lawful if a save
succeeds only over the version that the invoice has, counts the version up and stores what is read
back as the same invoice, if nothing else changes what is stored, and if a failure changes nothing.
-/

namespace Billing

/-- What a repository stores under an identifier, and how that is read. -/
structure Keeping (σ : Type) where
  repository : Repository σ
  empty : σ
  Stored : Type
  storedAt : σ → String → Option Stored
  version : Stored → Int
  read : Stored → Except StoreFailure Invoice
  /-- what is left of a moment when it is read -/
  times : Moment → Moment
  /-- every invoice is stored once, under its own identifier, and at a version from 1 -/
  Sound : σ → Prop

namespace Keeping

variable {σ : Type}

/-- The stores that come about by saving and deleting, whatever is saved or deleted. -/
inductive Reached (k : Keeping σ) : σ → Prop where
  | empty : Reached k k.empty
  | save {store : σ} (inv : Invoice) :
      Reached k store → Reached k ((k.repository.save inv).on store).2
  | delete {store : σ} (id : String) :
      Reached k store → Reached k ((k.repository.delete id).on store).2

/-- What a lookup gives back of what is stored, if anything is. -/
def lookup (k : Keeping σ) : Option k.Stored → Except StoreFailure (Option Invoice)
  | some st => (k.read st).map some
  | none => .ok none

theorem lookup_eq_some_iff {k : Keeping σ} {stored : Option k.Stored} {inv : Invoice} :
    k.lookup stored = .ok (some inv) ↔ ∃ st, stored = some st ∧ k.read st = .ok inv := by
  cases stored with
  | none => simp [lookup]
  | some st => simp [lookup, Except.map_eq_ok_iff]

/-- What is looked up without an error is found if it is stored. -/
theorem isSome_of_lookup {k : Keeping σ} {stored : Option k.Stored} {found : Option Invoice}
    (h : k.lookup stored = .ok found) : found.isSome = stored.isSome := by
  cases stored with
  | none =>
      obtain rfl := Except.ok.inj h
      rfl
  | some st =>
      obtain ⟨inv, -, rfl⟩ := Except.map_eq_ok_iff.1 h
      rfl

/-- What a successful save means for the store before and after it. -/
structure Saved (k : Keeping σ) (inv : Invoice) (store : σ) (saved : Invoice) (after : σ) :
    Prop where
  counted : saved = { inv with version := inv.version + 1 }
  /-- a new invoice was not stored, and any other was stored at its version -/
  current : (k.storedAt store inv.id.text = none ∧ inv.version = 0) ∨
    ∃ st, k.storedAt store inv.id.text = some st ∧ k.version st = inv.version
  stored : ∃ st, k.storedAt after inv.id.text = some st ∧ k.version st = inv.version + 1 ∧
    (inv.OneCurrency → k.read st = .ok (saved.reread k.times))
  others : ∀ id, id ≠ inv.id.text → k.storedAt after id = k.storedAt store id
  sound : k.Sound after

/-- The laws of keeping invoices. -/
structure Lawful (k : Keeping σ) : Prop where
  times_times : ∀ m, k.times (k.times m) = k.times m
  sound_empty : k.Sound k.empty
  version_pos : ∀ {store id st}, k.Sound store → k.storedAt store id = some st → 1 ≤ k.version st
  read : ∀ {store id st inv}, k.Sound store → k.storedAt store id = some st →
    k.read st = .ok inv → inv.id.text = id ∧ inv.version = k.version st ∧ inv.Proper
  findById : ∀ {store} id, k.Sound store →
    (k.repository.findById id).Reads store (k.lookup (k.storedAt store id))
  save : ∀ {store inv saved after}, k.Sound store →
    (k.repository.save inv).on store = (.ok saved, after) → k.Saved inv store saved after
  save_error : ∀ {store inv e after},
    (k.repository.save inv).on store = (.error e, after) → after = store
  delete : ∀ {store after id r}, k.Sound store →
    (k.repository.delete id).on store = (r, after) →
      k.Sound after ∧ r = .ok (k.storedAt store id).isSome ∧ k.storedAt after id = none ∧
        ∀ other, other ≠ id → k.storedAt after other = k.storedAt store other

theorem Lawful.sound {k : Keeping σ} (hk : k.Lawful) {store : σ} (h : k.Reached store) :
    k.Sound store := by
  induction h with
  | empty => exact hk.sound_empty
  | @save store inv _ ih =>
      -- a save that fails leaves the store as it was
      cases hsave : (k.repository.save inv).on store with
      | mk r after =>
          cases r with
          | ok saved => exact (hk.save ih hsave).sound
          | error e =>
              obtain rfl := hk.save_error hsave
              exact ih
  | delete id _ ih => exact (hk.delete ih rfl).1

end Keeping

end Billing
