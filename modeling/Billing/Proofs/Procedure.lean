import Billing.Procedure

set_option autoImplicit false

/-! # Procedures one step at a time

How a procedure goes, one operation after the other, whatever its state and its failures are. What
comes of a sequence follows from what comes of its parts (`Procedure.on_bind`); a failure ends it,
and what has been written by then stays written.
-/

namespace Billing.Procedure

variable {ε σ τ α β : Type}

@[simp] theorem on_pure (a : α) (state : σ) :
    (pure a : Procedure ε σ α).on state = (.ok a, state) := rfl

@[simp] theorem on_throw (e : ε) (state : σ) :
    (throw e : Procedure ε σ α).on state = (.error e, state) := rfl

@[simp] theorem on_set (after state : σ) :
    (set after : Procedure ε σ PUnit).on state = (.ok (), after) := rfl

@[simp] theorem on_modify (g : σ → σ) (state : σ) :
    (modify g : Procedure ε σ PUnit).on state = (.ok (), g state) := rfl

/-! ## Sequences -/

@[simp] theorem throw_bind (e : ε) (f : α → Procedure ε σ β) :
    ((throw e : Procedure ε σ α) >>= f) = throw e := rfl

@[simp] theorem on_get_bind (f : σ → Procedure ε σ β) (state : σ) :
    ((get : Procedure ε σ σ) >>= f).on state = (f state).on state := rfl

@[simp] theorem on_set_bind (after : σ) (f : PUnit → Procedure ε σ β) (state : σ) :
    ((set after : Procedure ε σ PUnit) >>= f).on state = (f ()).on after := rfl

@[simp] theorem on_modify_bind (g : σ → σ) (f : PUnit → Procedure ε σ β) (state : σ) :
    ((modify g : Procedure ε σ PUnit) >>= f).on state = (f ()).on (g state) := rfl

theorem on_lift_bind (r : Except ε α) (f : α → Procedure ε σ β) (state : σ) :
    (liftM r >>= f).on state = match r with
      | .ok a => (f a).on state
      | .error e => (.error e, state) := by
  cases r <;> rfl

theorem on_bind (p : Procedure ε σ α) (f : α → Procedure ε σ β) (state : σ) :
    (p >>= f).on state = match p.on state with
      | (.ok a, after) => (f a).on after
      | (.error e, after) => (.error e, after) := by
  cases h : p.on state with
  | mk r after =>
      have hp : p state = (r, after) := h
      show (ExceptT.bindCont f (p state).1) (p state).2 = _
      rw [hp]
      cases r <;> rfl

theorem on_bind_eq_ok_iff {p : Procedure ε σ α} {f : α → Procedure ε σ β} {state after : σ}
    {b : β} :
    (p >>= f).on state = (.ok b, after) ↔
      ∃ a mid, p.on state = (.ok a, mid) ∧ (f a).on mid = (.ok b, after) := by
  rw [on_bind]
  rcases p.on state with ⟨_ | a, mid⟩ <;> simp [and_assoc]

theorem on_bind_eq_error_iff {p : Procedure ε σ α} {f : α → Procedure ε σ β} {state after : σ}
    {e : ε} :
    (p >>= f).on state = (.error e, after) ↔
      p.on state = (.error e, after) ∨
        ∃ a mid, p.on state = (.ok a, mid) ∧ (f a).on mid = (.error e, after) := by
  rw [on_bind]
  rcases p.on state with ⟨_ | a, mid⟩ <;> simp [and_assoc]

/-- A failure that is caught does not undo what has been done. -/
theorem on_tryCatch (p : Procedure ε σ α) (handler : ε → Procedure ε σ α) (state : σ) :
    (tryCatch p handler).on state = match p.on state with
      | (.ok a, after) => (.ok a, after)
      | (.error e, after) => (handler e).on after := by
  show StateT.run (m := Id) (ExceptT.run (ExceptT.tryCatch p handler)) state = _
  simp only [ExceptT.tryCatch, ExceptT.run_mk, StateT.run_bind]
  cases h : p.on state with
  | mk r after =>
      have hp : StateT.run (m := Id) p state = (r, after) := h
      rw [hp]
      cases r <;> rfl

/-! ## Checks -/

@[simp] theorem on_throw_if (c : Prop) [Decidable c] (e : ε) (p : Procedure ε σ α) (state : σ) :
    (if c then throw e else p).on state = if c then (.error e, state) else p.on state := by
  split <;> rfl

@[simp] theorem on_if_pure (c : Prop) [Decidable c] (p : Procedure ε σ Unit) (state : σ) :
    (if c then p else pure ()).on state = if c then p.on state else (.ok (), state) := by
  split <;> rfl

/-! ## A part of the state -/

theorem on_onPart (part : τ → σ) (withPart : τ → σ → τ) (p : Procedure ε σ α) (state : τ) :
    (onPart part withPart p).on state =
      ((p.on (part state)).1, withPart state (p.on (part state)).2) := by
  rw [onPart, on_get_bind]
  cases p.on (part state) with
  | mk r after => cases r <;> rfl

end Billing.Procedure
