import Billing.Store.Basic
import Billing.Proofs.Except
import Billing.Proofs.Procedure

set_option autoImplicit false

/-! # Steps on a store

Steps that only look something up leave the store as it is (`Access.Reads`), and so do lists of
them. To save a copy of an invoice is to write it, and to count up its version if that succeeds
(`Saving.on_through`).
-/

namespace Billing

namespace Access

open Procedure

variable {σ α β : Type}

/-- A failure of an invoice as a failure of the store. -/
def refusing (r : Except Failure α) : Except StoreFailure α :=
  match r with
  | .ok a => .ok a
  | .error e => .error (.refused e)

theorem refusing_eq_ok_iff {r : Except Failure α} {a : α} : refusing r = .ok a ↔ r = .ok a := by
  cases r <;> simp [refusing]

/-! ## Looking up -/

/-- A step that looks something up and leaves the store as it is. -/
def Reads (step : Access σ α) (store : σ) (r : Except StoreFailure α) : Prop :=
  step.on store = (r, store)

theorem reads_ofResult (r : Except Failure α) (store : σ) :
    Reads (ofResult r) store (refusing r) := by
  cases r <;> rfl

theorem Reads.bind {step : Access σ α} {f : α → Access σ β} {store : σ}
    {r : Except StoreFailure α} {q : α → Except StoreFailure β} (h : Reads step store r)
    (hf : ∀ a, r = .ok a → Reads (f a) store (q a)) : Reads (step >>= f) store (r >>= q) := by
  unfold Reads at h ⊢
  rw [on_bind, h]
  cases r with
  | error e => rfl
  | ok a => exact hf a rfl

theorem Reads.map {step : Access σ α} {store : σ} {r : Except StoreFailure α} (f : α → β)
    (h : Reads step store r) : Reads (do return f (← step)) store (r.map f) := by
  have hbind := h.bind (f := fun a => pure (f a)) (q := fun a => .ok (f a)) fun a _ => rfl
  cases r <;> exact hbind

/-- A list of lookups. -/
theorem Reads.mapM {f : α → Access σ β} {g : α → Except StoreFailure β} {store : σ}
    (h : ∀ a, Reads (f a) store (g a)) (xs : List α) : Reads (xs.mapM f) store (xs.mapM g) := by
  induction xs with
  | nil => rfl
  | cons x xs ih =>
      rw [List.mapM_cons, List.mapM_cons]
      exact (h x).bind fun a _ => ih.bind fun as _ => rfl

end Access

/-! ## Saving a copy -/

namespace Saving

open Procedure

variable {σ : Type} {write : Invoice → Access σ Unit} {inv saved : Invoice} {store after : σ}

/-- The copy learns its new version if it has been written; otherwise it stays as it was. -/
theorem on_through (write : Invoice → Access σ Unit) (store : σ) (inv : Invoice) :
    (through write).on ⟨store, inv⟩ = match (write inv).on store with
      | (.ok _, after) => (.ok (), ⟨after, { inv with version := inv.version + 1 }⟩)
      | (.error e, after) => (.error e, ⟨after, inv⟩) := by
  rw [through, on_get_bind, on_bind, on_onPart]
  cases (write inv).on store with
  | mk r after => cases r <;> rfl

theorem on_copyOf (saving : Saving σ Unit) (inv : Invoice) (store : σ) :
    (saving.copyOf inv).on store =
      ((saving.on ⟨store, inv⟩).1.map fun _ => (saving.on ⟨store, inv⟩).2.copy,
        (saving.on ⟨store, inv⟩).2.store) := by
  rw [copyOf, on_get_bind]
  cases saving.on ⟨store, inv⟩ with
  | mk r held => cases r <;> rfl

/-- What is given back by a save, and the store after it. -/
theorem on_copyOf_through (write : Invoice → Access σ Unit) (inv : Invoice) (store : σ) :
    ((through write).copyOf inv).on store = match (write inv).on store with
      | (.ok _, after) => (.ok { inv with version := inv.version + 1 }, after)
      | (.error e, after) => (.error e, after) := by
  rw [on_copyOf, on_through]
  cases (write inv).on store with
  | mk r after => cases r <;> rfl

/-- The copy that is given back is the one that the caller is left with. -/
theorem on_through_of_ok (h : ((through write).copyOf inv).on store = (.ok saved, after)) :
    (through write).on ⟨store, inv⟩ = (.ok (), ⟨after, saved⟩) := by
  rw [on_copyOf_through] at h
  rw [on_through]
  cases hwrite : (write inv).on store with
  | mk r mid =>
      rw [hwrite] at h
      cases r with
      | error e => cases (Prod.mk.inj h).1
      | ok _ =>
          obtain ⟨hsaved, rfl⟩ := Prod.mk.inj h
          obtain rfl := Except.ok.inj hsaved
          rfl

/-- A save that fails leaves the caller with the copy as it was. -/
theorem on_through_of_error {e : StoreFailure}
    (h : ((through write).copyOf inv).on store = (.error e, after)) :
    (through write).on ⟨store, inv⟩ = (.error e, ⟨after, inv⟩) := by
  rw [on_copyOf_through] at h
  rw [on_through]
  cases hwrite : (write inv).on store with
  | mk r mid =>
      rw [hwrite] at h
      cases r with
      | error e' =>
          obtain ⟨he, rfl⟩ := Prod.mk.inj h
          obtain rfl := Except.error.inj he
          rfl
      | ok _ => cases (Prod.mk.inj h).1

end Saving

end Billing
