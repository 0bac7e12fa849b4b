import Billing.Proofs.Invoice.Number
import Billing.Proofs.Service.Call
import Billing.Proofs.Store.Loaded
import Billing.Proofs.Store.Shared

set_option autoImplicit false

/-! # How a new invoice gets its number

A service draws numbers until one is free, makes the invoice and saves it, and starts again if the
number has been taken in the meantime. However others write the store while it does so, each of its
attempts either writes nothing (`Desk.Looked`) or ends with a save that puts the new invoice beside
all that is stored (`Shared.Placed`), and what comes of all attempts is `Desk.Attempted`
(`Service.attempted_storeNew`).
-/

namespace Billing

namespace Invoice

/-- An invoice that has been made under a number, and not been saved yet. -/
structure New (number : InvoiceNumber) (inv : Invoice) : Prop where
  number_eq : inv.number = number
  version_eq : inv.version = 0
  oneCurrency : inv.OneCurrency

end Invoice

/-! ## What a save leaves -/

namespace Shared

variable {σ : Type} {k : Keeping σ} {l : k.Listing} {before mid after : Shared σ} {saved : Invoice}
  {others : Shared σ → List Intrusion} {inv : Invoice} {number : InvoiceNumber}

/-- The last of our calls has saved a new invoice, and no other one has written anything. What was
stored is stored as before, and the new invoice is stored at version 1 with a number of its own. -/
structure Placed (l : k.Listing) (before after : Shared σ) (saved : Invoice) : Prop where
  reached : k.Reached after.store
  visits : ∃ inv found own,
    after.visits = ⟨.save inv, found, after.store⟩ :: own ++ before.visits ∧
      (∀ v ∈ own, v.after = v.before) ∧
      ∀ id st, k.storedAt found id = some st → k.storedAt after.store id = some st
  version : saved.version = 1
  stored : ∃ st, k.storedAt after.store saved.id.text = some st ∧ k.version st = 1 ∧
    l.number st = saved.number.value ∧ k.read st = .ok (saved.reread k.times)
  unique : ∀ e ∈ l.entries after.store, e.1 ≠ saved.id.text → l.number e.2 ≠ saved.number.value

theorem Quiet.placed (first : Quiet k before mid) (second : Placed l mid after saved) :
    Placed l before after saved := by
  obtain ⟨own, hown, hquiet⟩ := first.visits
  obtain ⟨inv, found, own', hown', hquiet', hkept⟩ := second.visits
  refine ⟨second.reached, ⟨inv, found, own' ++ own, ?_, fun v hv => ?_, hkept⟩, second.version,
    second.stored, second.unique⟩
  · rw [hown', hown, List.cons_append, List.cons_append, List.append_assoc]
  · rcases List.mem_append.1 hv with hv | hv
    · exact hquiet' v hv
    · exact hquiet v hv

/-- A new invoice is only saved where nothing is stored under its identifier, so nothing is
overwritten, even if the identifier is not new. -/
theorem placed_visiting (hk : k.Lawful) (hl : l.Lawful) (h : k.Reached before.store)
    (hnew : inv.New number) {store : σ}
    (hsave : (k.repository.save inv).on (k.repository.found others before) = (.ok saved, store)) :
    Placed l before
      ((k.repository.visiting others (.save inv) (k.repository.save inv)).on before).2 saved ∧
      saved.number = number := by
  have hfound := h.found others
  have hsound := hk.sound hfound
  have hsaved := hk.save hsound hsave
  obtain ⟨hfree, st, hst, hnumber, hentries⟩ := hl.save hsound hsave
  obtain ⟨st', hst', -, hversion, hread⟩ := hl.stored_of_save hk hsound hnew.oneCurrency hsave
  obtain rfl : st = st' := Option.some.inj (hst.symm.trans hst')
  have hcounted := hsaved.counted
  rw [hnew.version_eq, zero_add] at hcounted hversion
  rw [hversion] at hread
  obtain rfl : saved = inv.atVersion 1 := hcounted
  have hreached : k.Reached store := by
    have := Keeping.Reached.save inv hfound
    rwa [hsave] at this
  rw [Repository.on_visiting, hsave]
  refine ⟨⟨hreached, ⟨inv, _, [], rfl, List.forall_mem_nil _, fun id st' hst' => ?_⟩, rfl,
    ⟨st, hst, hversion, hnumber, hread⟩, fun e he hid => ?_⟩, hnew.number_eq⟩
  · -- what is stored has a version from 1, so it is not what has been saved at version 0
    by_cases hid : id = inv.id.text
    · rcases hsaved.current with ⟨hnone, -⟩ | ⟨old, hold, hzero⟩
      · rw [← hid, hst'] at hnone
        cases hnone
      · have hpos := hk.version_pos hsound hold
        rw [hzero, hnew.version_eq] at hpos
        omega
    · exact (hsaved.others id hid).trans hst'
  · rcases hentries e he with rfl | hold
    · exact absurd rfl hid
    · exact fun heq => hfree ⟨e, hold, hid, heq⟩

end Shared

/-! ## Numbers that are drawn -/

namespace Desk

variable {σ : Type} {k : Keeping σ} {l : k.Listing} {m n : Nat}
  {before mid after : Desk (Shared σ)} {letters : String} {number : InvoiceNumber}
  {got : Option Invoice}

/-- At most `n` numbers have been drawn. -/
def Drew (n : Nat) (before after : Desk (Shared σ)) : Prop :=
  before.counter.next ≤ after.counter.next ∧ after.counter.next ≤ before.counter.next + n

/-- A number that has been drawn for a series. -/
def Drawn (letters : String) (before after : Desk (Shared σ)) (number : InvoiceNumber) : Prop :=
  number.series = letters ∧ before.counter.next ≤ number.sequence ∧
    (number.sequence : Int) < after.counter.next

/-- What has been done without writing anything and with at most `n` numbers. -/
structure Looked (k : Keeping σ) (n : Nat) (before after : Desk (Shared σ)) : Prop where
  quiet : Shared.Quiet k before.store after.store
  drew : Drew n before after

/-- What has been done to get a new invoice stored, with at most `n` numbers: it is stored under one
of them, or nothing has been written. -/
structure Attempted (l : k.Listing) (letters : String) (n : Nat) (before : Desk (Shared σ))
    (got : Option Invoice) (after : Desk (Shared σ)) : Prop where
  drew : Drew n before after
  quiet : got = none → Shared.Quiet k before.store after.store
  placed : ∀ saved, got = some saved →
    Shared.Placed l before.store after.store saved ∧ Drawn letters before after saved.number

theorem Looked.refl (h : k.Reached before.store.store) : Looked k n before before :=
  ⟨.refl h, by unfold Drew; omega⟩

theorem Looked.trans (first : Looked k m before mid) (second : Looked k n mid after) :
    Looked k (m + n) before after := by
  refine ⟨first.quiet.trans second.quiet, ?_⟩
  have hfirst := first.drew
  have hsecond := second.drew
  unfold Drew at *
  omega

theorem Looked.mono (h : Looked k m before after) (hle : m ≤ n) : Looked k n before after := by
  refine ⟨h.quiet, ?_⟩
  have hdrew := h.drew
  unfold Drew at *
  omega

/-- Identifiers that are used up do not matter. -/
theorem Looked.made (h : Looked k n before after) (made : Nat) :
    Looked k n before { after with made } := ⟨h.quiet, h.drew⟩

theorem Looked.attempted (h : Looked k n before after) :
    Attempted l letters n before none after :=
  ⟨h.drew, fun _ => h.quiet, fun _ hgot => nomatch hgot⟩

/-- Numbers that are drawn later are greater. -/
theorem Looked.drawn (first : Looked k m before mid) (second : Drawn letters mid after number) :
    Drawn letters before after number :=
  ⟨second.1, first.drew.1.trans second.2.1, second.2.2⟩

theorem Attempted.mono (h : Attempted l letters m before got after) (hle : m ≤ n) :
    Attempted l letters n before got after := by
  refine ⟨?_, h.quiet, h.placed⟩
  have hdrew := h.drew
  unfold Drew at *
  omega

theorem Looked.then_attempted (first : Looked k m before mid)
    (second : Attempted l letters n mid got after) :
    Attempted l letters (m + n) before got after := by
  refine ⟨?_, fun hgot => first.quiet.trans (second.quiet hgot), fun saved hgot => ?_⟩
  · have hfirst := first.drew
    have hsecond := second.drew
    unfold Drew at *
    omega
  · obtain ⟨hplaced, hdrawn⟩ := second.placed saved hgot
    exact ⟨first.quiet.placed hplaced, first.drawn hdrawn⟩

end Desk

namespace Service

open Access Procedure

variable {σ : Type} {k : Keeping σ} {l : k.Listing} {s : Service (Shared σ)}
  {others : Shared σ → List Intrusion} {desk after : Desk (Shared σ)} {n : Nat}
  {letters : String} {inv : Invoice} {number : InvoiceNumber}

/-- A drawn number is used up even if it is none of the series. -/
theorem on_drawNumber (letters : String) (desk : Desk σ) :
    (drawNumber letters : Call σ InvoiceNumber).on desk =
      (refusing (InvoiceNumber.ofCounter letters desk.counter.next),
        { desk with counter := ⟨desk.counter.next + 1⟩ }) := by
  -- the number gets a name of its own, so that nothing looks into how it is made
  obtain ⟨r, hr⟩ : ∃ r, r = InvoiceNumber.ofCounter letters desk.counter.next := ⟨_, rfl⟩
  have hgenerate : InvoiceNumber.generate letters desk.counter =
      (r, ⟨desk.counter.next + 1⟩) := by
    rw [hr]
    rfl
  rw [drawNumber, on_get_bind, hgenerate, ← hr]
  exact Call.on_ofResult r _

/-- One number more has been drawn. -/
theorem looked_drawNumber (h : k.Reached desk.store.store) :
    Desk.Looked k 1 desk { desk with counter := ⟨desk.counter.next + 1⟩ } :=
  ⟨.refl h, by unfold Desk.Drew; dsimp only; omega⟩

/-- A call that looks something up gives what it finds in the store as the others have left it. -/
theorem on_access_visiting {α : Type} {call : StoreCall} {step : Access σ α}
    {r : Except StoreFailure α} (h : k.Reached desk.store.store)
    (hstep : step.Reads (k.repository.found others desk.store) r) :
    ∃ after, (Call.access (k.repository.visiting others call step)).on desk = (r, after) ∧
      Desk.Looked k 0 desk after := by
  have hquiet := Shared.quiet_visiting h call (congrArg Prod.snd hstep)
  refine ⟨{ desk with store := ((k.repository.visiting others call step).on desk.store).2 }, ?_,
    hquiet, Int.le_refl _, by simp⟩
  rw [Call.on_access]
  refine Prod.ext ?_ rfl
  show ((k.repository.visiting others call step).on desk.store).1 = r
  rw [Repository.on_visiting]
  exact congrArg Prod.fst hstep

theorem on_drawFresh (s : Service σ) (desk : Desk σ) :
    s.drawFresh.on desk = (.ok (s.fresh desk.made), { desk with made := desk.made + 1 }) := rfl

/-- One attempt to store a new invoice under a free number. Nothing is stored if that number has
been taken in the meantime. -/
def attempt (s : Service σ) (letters : String)
    (make : InvoiceNumber → Fresh → Except Failure Invoice) : Call σ (Option Invoice) := do
  let number ← s.allocateNumber letters
  let inv ← Call.ofResult (make number (← s.drawFresh))
  s.saveUnlessTaken? inv

/-- The attempts follow one another until one of them has stored the invoice. -/
theorem storedNew?_succ (s : Service σ) (letters : String)
    (make : InvoiceNumber → Fresh → Except Failure Invoice) (n : Nat) :
    s.storedNew? letters make (n + 1) = s.attempt letters make >>= fun got =>
      match got with
      | some saved => return some saved
      | none => s.storedNew? letters make n := by
  rw [storedNew?, attempt, bind_assoc]
  refine bind_congr fun number => ?_
  rw [bind_assoc]
  refine bind_congr fun fresh => ?_
  exact (bind_assoc _ _ _).symm

section Attempts

variable (hk : k.Lawful) (hl : l.Lawful) (repository : s.repository = k.repository.shared others)
include hk hl repository

theorem looked_existsNumber (h : k.Reached desk.store.store) (value : String) :
    ∃ taken after, (Call.access (s.repository.existsNumber value)).on desk = (.ok taken, after) ∧
      Desk.Looked k 0 desk after := by
  have hread := hl.existsNumber value (hk.sound (h.found others))
  rw [repository]
  exact ⟨_, on_access_visiting h hread⟩

/-- A number that is found to be free has been drawn for the series. -/
theorem looked_freeNumber? (hletters : isSeries letters.toList = true)
    (h : k.Reached desk.store.store) {r : Except StoreFailure (Option InvoiceNumber)}
    (hon : (s.freeNumber? letters n).on desk = (r, after)) :
    Desk.Looked k n desk after ∧
      ∀ number, r = .ok (some number) → Desk.Drawn letters desk after number := by
  induction n generalizing desk with
  | zero =>
      obtain ⟨rfl, rfl⟩ := Prod.mk.inj hon
      exact ⟨.refl h, fun _ hr => nomatch hr⟩
  | succ n ih =>
      have hdraw := looked_drawNumber h
      rw [freeNumber?, on_bind, on_drawNumber] at hon
      cases hnumber : InvoiceNumber.ofCounter letters desk.counter.next with
      | error e =>
          rw [hnumber] at hon
          obtain ⟨rfl, rfl⟩ := Prod.mk.inj hon
          exact ⟨hdraw.mono (by omega), fun _ hr => nomatch hr⟩
      | ok number =>
          obtain ⟨hseries, hsequence⟩ := InvoiceNumber.ofCounter_eq_ok hletters hnumber
          obtain ⟨taken, mid, haccess, hlooked⟩ :=
            looked_existsNumber hk hl repository hdraw.quiet.reached number.value
          have hbefore := hdraw.trans hlooked
          simp only [hnumber, refusing, on_bind, haccess] at hon
          split at hon
          next =>
            obtain ⟨hlooked', hdrawn⟩ := ih hbefore.quiet.reached hon
            exact ⟨(hbefore.trans hlooked').mono (by omega),
              fun number hr => hbefore.drawn (hdrawn number hr)⟩
          next =>
            obtain ⟨rfl, rfl⟩ := Prod.mk.inj hon
            refine ⟨hbefore.mono (by omega), fun number' hr => ?_⟩
            obtain rfl := Option.some.inj (Except.ok.inj hr)
            have hcounter := hlooked.drew.1
            refine ⟨hseries, hsequence.ge, ?_⟩
            rw [hsequence]
            exact Int.lt_of_lt_of_le (Int.lt_succ _) hcounter

theorem looked_allocateNumber (hletters : isSeries letters.toList = true)
    (h : k.Reached desk.store.store) {r : Except StoreFailure InvoiceNumber}
    (hon : (s.allocateNumber letters).on desk = (r, after)) :
    Desk.Looked k s.settings.attempts.count desk after ∧
      ∀ number, r = .ok number → Desk.Drawn letters desk after number := by
  cases hfree : (s.freeNumber? letters s.settings.attempts.count).on desk with
  | mk found mid =>
      obtain ⟨hlooked, hdrawn⟩ := looked_freeNumber? hk hl repository hletters h hfree
      simp only [allocateNumber, on_bind, hfree] at hon
      cases found with
      | error e =>
          obtain ⟨rfl, rfl⟩ := Prod.mk.inj hon
          exact ⟨hlooked, fun _ hr => nomatch hr⟩
      | ok found =>
          cases found with
          | none =>
              obtain ⟨rfl, rfl⟩ := Prod.mk.inj hon
              exact ⟨hlooked, fun _ hr => nomatch hr⟩
          | some number =>
              obtain ⟨rfl, rfl⟩ := Prod.mk.inj hon
              exact ⟨hlooked, fun number' hr => hdrawn number' (by rw [Except.ok.inj hr])⟩

/-- A new invoice is saved, or nothing is written. -/
theorem attempted_saveUnlessTaken? (h : k.Reached desk.store.store) (hnew : inv.New number)
    {r : Except StoreFailure (Option Invoice)}
    (hon : (s.saveUnlessTaken? inv).on desk = (r, after)) :
    after.counter = desk.counter ∧
      (r.toOption.join = none → Shared.Quiet k desk.store after.store) ∧
      ∀ saved, r.toOption.join = some saved →
        Shared.Placed l desk.store after.store saved ∧ saved.number = number := by
  have hvisit : (s.repository.save inv).on desk.store =
      (k.repository.visiting others (.save inv) (k.repository.save inv)).on desk.store := by
    rw [repository]
    rfl
  simp only [saveUnlessTaken?, on_tryCatch, on_bind, Call.on_access, hvisit] at hon
  cases hsave : (k.repository.save inv).on (k.repository.found others desk.store) with
  | mk reply store =>
      have hreply : ((k.repository.visiting others (.save inv) (k.repository.save inv)).on
          desk.store).1 = reply := by rw [Repository.on_visiting, hsave]
      rw [hreply] at hon
      cases reply with
      | ok saved =>
          obtain ⟨rfl, rfl⟩ := Prod.mk.inj hon
          refine ⟨rfl, fun hnone => (nomatch hnone), fun saved' hgot => ?_⟩
          obtain rfl : saved = saved' := Option.some.inj hgot
          exact Shared.placed_visiting hk hl h hnew hsave
      | error e =>
          -- a save that fails writes nothing, whether the failure is caught or not
          obtain rfl := hk.save_error hsave
          have hquiet := Shared.quiet_visiting h (.save inv) (congrArg Prod.snd hsave)
          cases e <;> obtain ⟨rfl, rfl⟩ := Prod.mk.inj hon <;>
            exact ⟨rfl, fun _ => hquiet, fun _ hgot => nomatch hgot⟩

variable {make : InvoiceNumber → Fresh → Except Failure Invoice}
  (hmake : ∀ {number fresh inv}, make number fresh = .ok inv → inv.New number)
include hmake

/-- An attempt draws no more numbers than are drawn to find a free one. -/
theorem attempted_attempt (hletters : isSeries letters.toList = true)
    (h : k.Reached desk.store.store) {r : Except StoreFailure (Option Invoice)}
    (hon : (s.attempt letters make).on desk = (r, after)) :
    Desk.Attempted l letters s.settings.attempts.count desk r.toOption.join after := by
  cases hallocate : (s.allocateNumber letters).on desk with
  | mk found mid =>
      obtain ⟨hlooked, hdrawn⟩ := looked_allocateNumber hk hl repository hletters h hallocate
      simp only [attempt, on_bind, hallocate] at hon
      cases found with
      | error e =>
          obtain ⟨rfl, rfl⟩ := Prod.mk.inj hon
          exact hlooked.attempted
      | ok number =>
          simp only [on_drawFresh, Call.on_ofResult] at hon
          have hlooked := hlooked.made (mid.made + 1)
          cases hmade : make number (s.fresh mid.made) with
          | error e =>
              rw [hmade] at hon
              obtain ⟨rfl, rfl⟩ := Prod.mk.inj hon
              exact hlooked.attempted
          | ok inv =>
              simp only [hmade, refusing] at hon
              obtain ⟨hcounter, hquiet, hplaced⟩ := attempted_saveUnlessTaken? hk hl repository
                hlooked.quiet.reached (hmake hmade) hon
              refine ⟨?_, fun hnone => hlooked.quiet.trans (hquiet hnone), fun saved hgot => ?_⟩
              · unfold Desk.Drew
                rw [hcounter]
                exact hlooked.drew
              · obtain ⟨hsaved, hnumber⟩ := hplaced saved hgot
                refine ⟨hlooked.quiet.placed hsaved, ?_⟩
                unfold Desk.Drawn
                rw [hnumber, hcounter]
                exact hdrawn number rfl

theorem attempted_storedNew? (hletters : isSeries letters.toList = true)
    (h : k.Reached desk.store.store) {r : Except StoreFailure (Option Invoice)}
    (hon : (s.storedNew? letters make n).on desk = (r, after)) :
    Desk.Attempted l letters (n * s.settings.attempts.count) desk r.toOption.join after := by
  induction n generalizing desk with
  | zero =>
      obtain ⟨rfl, rfl⟩ := Prod.mk.inj hon
      exact (Desk.Looked.refl h).attempted
  | succ n ih =>
      cases hattempt : (s.attempt letters make).on desk with
      | mk reply mid =>
          have hattempted := attempted_attempt hk hl repository hmake hletters h hattempt
          have hle : s.settings.attempts.count ≤ (n + 1) * s.settings.attempts.count :=
            Nat.le_mul_of_pos_left _ n.succ_pos
          rw [storedNew?_succ, on_bind, hattempt] at hon
          rcases reply with e | _ | saved
          case error =>
            obtain ⟨rfl, rfl⟩ := Prod.mk.inj hon
            exact hattempted.mono hle
          case ok.none =>
            -- the number has been taken, so the next one is tried
            have hagain := ih (hattempted.quiet rfl).reached hon
            have hfirst : Desk.Looked k s.settings.attempts.count desk mid :=
              ⟨hattempted.quiet rfl, hattempted.drew⟩
            rw [Nat.add_mul, Nat.one_mul, Nat.add_comm]
            exact hfirst.then_attempted hagain
          case ok.some =>
            obtain ⟨rfl, rfl⟩ := Prod.mk.inj hon
            exact hattempted.mono hle

/-- What comes of making and saving a new invoice: at most as many numbers are drawn as the square
of the attempts. -/
theorem attempted_storeNew (hletters : isSeries letters.toList = true)
    (h : k.Reached desk.store.store) {r : Except StoreFailure Invoice}
    (hon : (s.storeNew letters make).on desk = (r, after)) :
    Desk.Attempted l letters (s.settings.attempts.count * s.settings.attempts.count) desk
      r.toOption after := by
  cases hstored : (s.storedNew? letters make s.settings.attempts.count).on desk with
  | mk reply last =>
      have hattempted := attempted_storedNew? hk hl repository hmake hletters h hstored
      simp only [storeNew, on_bind, hstored] at hon
      cases reply with
      | error e =>
          obtain ⟨rfl, rfl⟩ := Prod.mk.inj hon
          exact hattempted
      | ok got =>
          cases got with
          | none =>
              obtain ⟨rfl, rfl⟩ := Prod.mk.inj hon
              exact hattempted
          | some saved =>
              obtain ⟨rfl, rfl⟩ := Prod.mk.inj hon
              exact hattempted

end Attempts

end Service

end Billing
