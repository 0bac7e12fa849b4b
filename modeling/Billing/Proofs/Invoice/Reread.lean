import Billing.Proofs.Invoice.Currency
import Billing.Proofs.Invoice.Payments
import Billing.Proofs.Invoice.Version

set_option autoImplicit false

/-! # Invoices that have been stored and brought back

Storing an invoice and bringing it back strips its notes and may take something from its moments:
what comes back is `Invoice.reread`. No command looks at these, so commands do the same to an
invoice before and after it has been stored (`Alike.step`), and it makes no difference whether an
invoice is stored once more on the way.
-/

namespace Billing

/-- The moment that a command writes, if it writes one. -/
def Command.moment? (clock : Moment) : Command → Option Moment
  | .finalize now | .send now | .recordPayment _ now | .markAsPaid _ now | .void _ now =>
      some (now.getD clock)
  | _ => none

namespace Invoice

variable {f : Moment → Moment} {clock : Moment} {inv inv' after : Invoice} {command : Command}
  {result : Option LineItem} {steps : List Step}

/-- An invoice as it is brought back: without blanks around its notes, and with its moments as they
are read back by `f`. -/
def reread (f : Moment → Moment) (inv : Invoice) : Invoice :=
  { inv with
    notes := notesOf inv.notes
    finalizedAt := inv.finalizedAt.map f
    sentAt := inv.sentAt.map f
    paidAt := inv.paidAt.map f
    voidedAt := inv.voidedAt.map f }

/-- The moments at which something has happened to an invoice. -/
def moments (inv : Invoice) : List (Option Moment) :=
  [inv.finalizedAt, inv.sentAt, inv.paidAt, inv.voidedAt]

theorem moments_reread (f : Moment → Moment) (inv : Invoice) :
    (inv.reread f).moments = inv.moments.map (Option.map f) := rfl

/-! ## Invoices that have been made properly -/

/-- What every invoice has from the time when it was made: one currency, and notes that were taken
without the blanks around them. -/
structure Proper (inv : Invoice) : Prop where
  oneCurrency : inv.OneCurrency
  notes : ∃ given, inv.notes = notesOf given

theorem proper_of_restore {fields : InvoiceFields} {r : InvoiceRecord} {fresh : Fresh}
    (h : restore fields r fresh = .ok inv) : inv.Proper := by
  refine ⟨oneCurrency_of_restore h, fields.notes, ?_⟩
  obtain ⟨_, _, _, _, _, _, _, _, -, -, -, -, -, -, -, -, -, -, rfl⟩ := restore_eq_ok_iff.1 h
  rfl

/-- An invoice that is restored with an identifier has it, and the version that is given. -/
theorem id_version_of_restore {fields : InvoiceFields} {r : InvoiceRecord} {fresh : Fresh}
    {id : String} (h : restore fields r fresh = .ok inv) (hid : r.id = some id) (hne : id ≠ "") :
    inv.id.text = id ∧ inv.version = r.version := by
  obtain ⟨_, _, _, _, _, _, _, _, -, -, -, -, -, -, -, -, -, -, rfl⟩ := restore_eq_ok_iff.1 h
  -- an identifier that is empty would be replaced by a fresh one
  exact ⟨by simp [Identifier.ofGiven, hid, hne], rfl⟩

theorem Proper.atVersion (h : inv.Proper) (version : Int) : (inv.atVersion version).Proper :=
  ⟨⟨h.oneCurrency.items, h.oneCurrency.paid⟩, h.notes⟩

/-- No command changes what an invoice is called, its version or its notes. -/
theorem constant_of_change (h : Change clock inv command result after) :
    after.id = inv.id ∧ after.version = inv.version ∧ after.notes = inv.notes := by
  induction h with
  | markAsPaid _ _ _ ih => exact ih
  | _ => exact ⟨rfl, rfl, rfl⟩

theorem number_of_change (h : Change clock inv command result after) :
    after.number = inv.number := by
  induction h with
  | markAsPaid _ _ _ ih => exact ih
  | _ => rfl

theorem id_version_run (inv : Invoice) (steps : List Step) :
    (inv.run steps).id = inv.id ∧ (inv.run steps).version = inv.version :=
  run_induction (P := fun after => after.id = inv.id ∧ after.version = inv.version) ⟨rfl, rfl⟩
    fun h hchange => by
      obtain ⟨hid, hversion, -⟩ := constant_of_change hchange
      exact ⟨hid.trans h.1, hversion.trans h.2⟩

theorem Proper.change (h : inv.Proper) (hchange : Change clock inv command result after) :
    after.Proper :=
  ⟨h.oneCurrency.change hchange, by rw [(constant_of_change hchange).2.2]; exact h.notes⟩

theorem Proper.run (h : inv.Proper) (steps : List Step) : (inv.run steps).Proper :=
  run_induction h Proper.change

/-- Notes that are not blank are stripped only once. -/
theorem notesOf_notesOf {notes : Option String} (h : notesOf notes ≠ some "") :
    notesOf (notesOf notes) = notesOf notes := by
  cases notes with
  | none => rfl
  | some s =>
      by_cases hs : s = ""
      · rw [hs]
        rfl
      · have hstripped : notesOf (some s) = some (Text.strip s) := if_neg hs
        rw [hstripped] at h ⊢
        show (if Text.strip s = "" then none else some (Text.strip (Text.strip s))) = _
        rw [if_neg fun hblank => h (congrArg some hblank), Text.strip_strip]

/-- Stripping notes once more than twice changes nothing. -/
theorem notesOf_notesOf_notesOf (notes : Option String) :
    notesOf (notesOf (notesOf notes)) = notesOf (notesOf notes) := by
  by_cases hblank : notesOf notes = some ""
  · rw [hblank]
    rfl
  · rw [notesOf_notesOf hblank, notesOf_notesOf hblank]

/-! ## The same but for notes and moments -/

/-- Two invoices that come back as the same one. -/
def Alike (f : Moment → Moment) (inv inv' : Invoice) : Prop := inv.reread f = inv'.reread f

theorem Alike.symm (h : Alike f inv inv') : Alike f inv' inv := Eq.symm h

theorem Proper.alike_reread (h : inv.Proper) (idem : ∀ m, f (f m) = f m) :
    Alike f (inv.reread f) inv := by
  obtain ⟨given, hgiven⟩ := h.notes
  have hmap (o : Option Moment) : (o.map f).map f = o.map f := by
    cases o <;> simp [idem]
  simp [Alike, reread, hmap, hgiven, notesOf_notesOf_notesOf]

theorem Alike.eq (h : Alike f inv inv') :
    ∃ notes finalizedAt sentAt paidAt voidedAt,
      inv' = { inv with notes, finalizedAt, sentAt, paidAt, voidedAt } ∧
        notesOf notes = notesOf inv.notes ∧ finalizedAt.map f = inv.finalizedAt.map f ∧
        sentAt.map f = inv.sentAt.map f ∧ paidAt.map f = inv.paidAt.map f ∧
        voidedAt.map f = inv.voidedAt.map f := by
  refine ⟨inv'.notes, inv'.finalizedAt, inv'.sentAt, inv'.paidAt, inv'.voidedAt, ?_⟩
  cases inv
  cases inv'
  simp only [Alike, reread, Invoice.mk.injEq] at h
  simp_all

/-- What a command does to an invoice, it does to one that comes back as the same. -/
theorem Alike.change (h : Alike f inv inv') (hchange : Change clock inv command result after) :
    ∃ after', Change clock inv' command result after' ∧ Alike f after after' := by
  induction hchange generalizing inv' with
  | markAsPaid total_eq exact _ ih =>
      obtain ⟨after', hchange', halike⟩ := ih h
      obtain ⟨_, _, _, _, _, rfl, -⟩ := h.eq
      exact ⟨after', .markAsPaid total_eq exact hchange', halike⟩
  | addItem draft currency fresh =>
      obtain ⟨_, _, _, _, _, rfl, hnotes, hfin, hsent, hpaid, hvoid⟩ := h.eq
      exact ⟨_, .addItem draft currency fresh, by
        simp [Alike, reread, hnotes, hfin, hsent, hpaid, hvoid]⟩
  | removeItem draft found =>
      obtain ⟨_, _, _, _, _, rfl, hnotes, hfin, hsent, hpaid, hvoid⟩ := h.eq
      exact ⟨_, .removeItem draft found, by
        simp [Alike, reread, hnotes, hfin, hsent, hpaid, hvoid]⟩
  | updateItem draft found checked =>
      obtain ⟨_, _, _, _, _, rfl, hnotes, hfin, hsent, hpaid, hvoid⟩ := h.eq
      exact ⟨_, .updateItem draft found checked, by
        simp [Alike, reread, hnotes, hfin, hsent, hpaid, hvoid]⟩
  | finalize draft items =>
      obtain ⟨_, _, _, _, _, rfl, hnotes, hfin, hsent, hpaid, hvoid⟩ := h.eq
      exact ⟨_, .finalize draft items, by simp [Alike, reread, hnotes, hsent, hpaid, hvoid]⟩
  | send finalized =>
      obtain ⟨_, _, _, _, _, rfl, hnotes, hfin, hsent, hpaid, hvoid⟩ := h.eq
      exact ⟨_, .send finalized, by simp [Alike, reread, hnotes, hfin, hpaid, hvoid]⟩
  | recordPayment payable currency positive sum total_eq settled =>
      obtain ⟨_, _, _, _, _, rfl, hnotes, hfin, hsent, hpaid, hvoid⟩ := h.eq
      refine ⟨_, .recordPayment payable currency positive sum total_eq settled, ?_⟩
      -- the moment of payment is new on both sides, or kept on both
      simp only [Alike, reread, hnotes, hfin, hsent, hvoid]
      split <;> simp [hpaid]
  | void unvoided unpaid reason_eq =>
      obtain ⟨_, _, _, _, _, rfl, hnotes, hfin, hsent, hpaid, hvoid⟩ := h.eq
      exact ⟨_, .void unvoided unpaid reason_eq, by
        simp [Alike, reread, hnotes, hfin, hsent, hpaid]⟩

theorem Alike.accepts {s : Step} (h : Alike f inv inv') : inv.accepts s = inv'.accepts s := by
  -- alikeness goes both ways, so one direction is enough
  have transfer {a b : Invoice} (hab : Alike f a b) (ha : a.accepts s = true) :
      b.accepts s = true := by
    obtain ⟨result, hchange⟩ := change_of_accepts ha
    obtain ⟨after', hchange', -⟩ := hab.change hchange
    exact (accepts_of_change hchange').1
  exact Bool.eq_iff_iff.2 ⟨transfer h, transfer h.symm⟩

theorem Alike.step {s : Step} (h : Alike f inv inv') : Alike f (inv.after s) (inv'.after s) := by
  cases haccepts : inv.accepts s with
  | false =>
      rw [after_of_not_accepts haccepts, after_of_not_accepts (h.accepts ▸ haccepts)]
      exact h
  | true =>
      obtain ⟨result, hchange⟩ := change_of_accepts haccepts
      obtain ⟨after', hchange', halike⟩ := h.change hchange
      obtain ⟨-, hafter⟩ := accepts_of_change hchange'
      rw [hafter]
      exact halike

theorem Alike.run (h : Alike f inv inv') (steps : List Step) :
    Alike f (inv.run steps) (inv'.run steps) := by
  induction steps generalizing inv inv' with
  | nil => exact h
  | cons s steps ih =>
      show Alike f ((inv.after s).run steps) ((inv'.after s).run steps)
      exact ih h.step

theorem Alike.acceptedCents (h : Alike f inv inv') (steps : List Step) :
    inv.acceptedCents steps = inv'.acceptedCents steps := by
  induction steps generalizing inv inv' with
  | nil => rfl
  | cons s steps ih => rw [Invoice.acceptedCents, Invoice.acceptedCents, h.accepts, ih h.step]

/-! ## Invoices that come back as they are -/

/-- An invoice that comes back as it is. -/
def Settled (f : Moment → Moment) (inv : Invoice) : Prop := inv.reread f = inv

theorem settled_iff : inv.Settled f ↔ notesOf inv.notes = inv.notes ∧
    inv.finalizedAt.map f = inv.finalizedAt ∧ inv.sentAt.map f = inv.sentAt ∧
      inv.paidAt.map f = inv.paidAt ∧ inv.voidedAt.map f = inv.voidedAt := by
  cases inv
  simp [Settled, reread]

/-- An invoice comes back as it is if its notes are not blank and nothing is taken from its
moments. -/
theorem Proper.settled (h : inv.Proper) (hnotes : inv.notes ≠ some "")
    (hmoments : ∀ time ∈ inv.moments, ∀ m ∈ time, f m = m) : inv.Settled f := by
  have hmap : ∀ time ∈ inv.moments, time.map f = time := by
    intro time htime
    cases time with
    | none => rfl
    | some m => exact congrArg some (hmoments _ htime m rfl)
  refine settled_iff.2 ⟨?_, hmap _ (by simp [moments]), hmap _ (by simp [moments]),
    hmap _ (by simp [moments]), hmap _ (by simp [moments])⟩
  obtain ⟨given, hgiven⟩ := h.notes
  rw [hgiven] at hnotes ⊢
  exact notesOf_notesOf hnotes

/-- What has come back once comes back as it is from then on. -/
theorem Proper.settled_reread (h : inv.Proper) (idem : ∀ m, f (f m) = f m) :
    (inv.reread f).Settled f := h.alike_reread idem

/-- Commands write nothing else that could come back as something different. -/
theorem Settled.change (h : inv.Settled f) (hmoment : ∀ m ∈ command.moment? clock, f m = m)
    (hchange : Change clock inv command result after) : after.Settled f := by
  rw [settled_iff] at h ⊢
  obtain ⟨hnotes, hfin, hsent, hpaid, hvoid⟩ := h
  induction hchange with
  | addItem | removeItem | updateItem => exact ⟨hnotes, hfin, hsent, hpaid, hvoid⟩
  | finalize =>
      exact ⟨hnotes, congrArg some (hmoment _ rfl), hsent, hpaid, hvoid⟩
  | send => exact ⟨hnotes, hfin, congrArg some (hmoment _ rfl), hpaid, hvoid⟩
  | recordPayment =>
      refine ⟨hnotes, hfin, hsent, ?_, hvoid⟩
      split
      · exact congrArg some (hmoment _ rfl)
      · exact hpaid
  | markAsPaid _ _ _ ih => exact ih hmoment
  | void => exact ⟨hnotes, hfin, hsent, hpaid, congrArg some (hmoment _ rfl)⟩

end Invoice

end Billing
