import Billing.Proofs.Store.Keeping
import Billing.Proofs.Store.Shelf

set_option autoImplicit false

/-! # A store that others write, too

Our calls of a repository are single steps, and before each of them others may have saved and
deleted whatever they like (`Repository.shared`). What they do may depend on everything that has
happened so far. Our own calls are remembered with the store that they found and the store that
they left (`Visit`); a part of a call that writes nothing is `Shared.Quiet`.
-/

namespace Billing

/-- What another writer does to a store. -/
inductive Intrusion where
  | save (inv : Invoice)
  | delete (id : String)

/-- A call of ours: what was asked, the store that it found and the store that it left. -/
structure Visit (σ : Type) where
  call : StoreCall
  before : σ
  after : σ

/-- A store that others write, too, and our own calls so far, the newest first. -/
structure Shared (σ : Type) where
  store : σ
  visits : List (Visit σ)

namespace Repository

variable {σ α : Type}

/-- The store after what another writer does, whether it succeeds or not. -/
def intruded (r : Repository σ) (store : σ) : Intrusion → σ
  | .save inv => ((r.save inv).on store).2
  | .delete id => ((r.delete id).on store).2

/-- The store as our next call finds it. -/
def found (r : Repository σ) (others : Shared σ → List Intrusion) (shared : Shared σ) : σ :=
  (others shared).foldl r.intruded shared.store

/-- A call of ours, after the others have been at the store. -/
def visiting (r : Repository σ) (others : Shared σ → List Intrusion) (call : StoreCall)
    (step : Access σ α) : Access (Shared σ) α := do
  let shared ← get
  let (reply, after) := step.on (r.found others shared)
  set (⟨after, ⟨call, r.found others shared, after⟩ :: shared.visits⟩ : Shared σ)
  match reply with
  | .ok a => return a
  | .error e => throw e

/-- The repository as one of several writers has it. -/
def shared (r : Repository σ) (others : Shared σ → List Intrusion) : Repository (Shared σ) where
  save inv := r.visiting others (.save inv) (r.save inv)
  findById id := r.visiting others (.findById id) (r.findById id)
  findByNumber number := r.visiting others (.findByNumber number) (r.findByNumber number)
  findByClient client := r.visiting others (.findByClient client) (r.findByClient client)
  findByStatus status := r.visiting others (.findByStatus status) (r.findByStatus status)
  findOverdue day := r.visiting others (.findOverdue day) (r.findOverdue day)
  findDraftsBy user := r.visiting others (.findDraftsBy user) (r.findDraftsBy user)
  existsNumber number := r.visiting others (.existsNumber number) (r.existsNumber number)
  delete id := r.visiting others (.delete id) (r.delete id)

/-- A call gives what it gives on the store as the others have left it, and is remembered. -/
theorem on_visiting (r : Repository σ) (others : Shared σ → List Intrusion) (call : StoreCall)
    (step : Access σ α) (shared : Shared σ) :
    (r.visiting others call step).on shared =
      ((step.on (r.found others shared)).1, ⟨(step.on (r.found others shared)).2,
        ⟨call, r.found others shared, (step.on (r.found others shared)).2⟩ :: shared.visits⟩) := by
  rw [visiting, Procedure.on_get_bind]
  cases step.on (r.found others shared) with
  | mk reply after => cases reply <;> rfl

end Repository

namespace Keeping

variable {σ : Type} {k : Keeping σ} {shared : Shared σ}

/-- Whatever the others do, the store comes about by saving and deleting. -/
theorem Reached.found (h : k.Reached shared.store) (others : Shared σ → List Intrusion) :
    k.Reached (k.repository.found others shared) := by
  have hfoldl : ∀ (intrusions : List Intrusion) (store : σ), k.Reached store →
      k.Reached (intrusions.foldl k.repository.intruded store) := by
    intro intrusions
    induction intrusions with
    | nil => exact fun _ hstore => hstore
    | cons i intrusions ih =>
        intro store hstore
        refine ih _ ?_
        cases i with
        | save inv => exact .save inv hstore
        | delete id => exact .delete id hstore
  exact hfoldl _ _ h

end Keeping

namespace Shared

variable {σ : Type} {k : Keeping σ} {before mid after : Shared σ}

/-- The others may have been at the store, but our own calls have written nothing. -/
structure Quiet (k : Keeping σ) (before after : Shared σ) : Prop where
  reached : k.Reached after.store
  visits : ∃ own, after.visits = own ++ before.visits ∧ ∀ v ∈ own, v.after = v.before

theorem Quiet.refl (h : k.Reached before.store) : Quiet k before before :=
  ⟨h, [], rfl, List.forall_mem_nil _⟩

theorem Quiet.trans (first : Quiet k before mid) (second : Quiet k mid after) :
    Quiet k before after := by
  obtain ⟨own, hown, hquiet⟩ := first.visits
  obtain ⟨own', hown', hquiet'⟩ := second.visits
  refine ⟨second.reached, own' ++ own, by rw [hown', hown, List.append_assoc], fun v hv => ?_⟩
  rcases List.mem_append.1 hv with hv | hv
  · exact hquiet' v hv
  · exact hquiet v hv

/-- A call of ours that leaves the store that it finds. -/
theorem quiet_visiting {α : Type} {others : Shared σ → List Intrusion} {step : Access σ α}
    (h : k.Reached before.store) (call : StoreCall)
    (hstep : (step.on (k.repository.found others before)).2 = k.repository.found others before) :
    Quiet k before ((k.repository.visiting others call step).on before).2 := by
  rw [Repository.on_visiting, hstep]
  refine ⟨h.found others, [_], rfl, fun v hv => ?_⟩
  rw [List.mem_singleton.1 hv]

end Shared

end Billing
