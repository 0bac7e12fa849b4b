set_option autoImplicit false

/-! # Procedures

A change to an invoice, a call of a store and a call of a service have much in common: each reads a
state and writes it, and each can fail. They are all a `Procedure` on their state. A failure does
not undo what was written before it.
-/

namespace Billing

/-- A computation that reads and writes a state and can fail. -/
abbrev Procedure (ε σ α : Type) : Type := ExceptT ε (StateM σ) α

namespace Procedure

variable {ε σ τ α : Type}

/-- The result of a procedure, and the state after it. -/
def on (p : Procedure ε σ α) (state : σ) : Except ε α × σ :=
  StateT.run (m := Id) (ExceptT.run p) state

/-- A procedure on a part of a larger state, the rest of which it leaves alone. -/
def onPart (part : τ → σ) (withPart : τ → σ → τ) (p : Procedure ε σ α) : Procedure ε τ α := do
  let state ← get
  let (r, after) := p.on (part state)
  set (withPart state after)
  match r with
  | .ok a => return a
  | .error e => throw e

end Procedure

end Billing
