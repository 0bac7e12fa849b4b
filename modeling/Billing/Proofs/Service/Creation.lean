import Billing.Proofs.Invoice.Proration
import Billing.Proofs.Service.Allocation

set_option autoImplicit false

/-! # New invoices do not get in the way of others

Creating and prorating end in a new invoice that is stored under a number of its own, or write
nothing at all, whatever others do to the store in between (`Turn.Safe`). Over a run of such calls
the numbers only grow, in both series together (`creation_is_safe`).
-/

namespace Billing

/-! ## New drafts -/

namespace Invoice

variable {f : InvoiceFields} {number : InvoiceNumber} {today : Date} {fresh : Fresh}
  {inv after : Invoice} {items : List LineItem}

theorem new_of_create (h : create f today fresh = .ok inv)
    (hnumber : f.number = .text number.value) : inv.New number := by
  have hrestore := (create_eq_ok h).1
  refine ⟨?_, version_of_create h, oneCurrency_of_restore hrestore⟩
  obtain ⟨number', _, _, _, _, _, _, _, hof, -, -, -, -, -, -, -, -, -, rfl⟩ :=
    restore_eq_ok_iff.1 hrestore
  rw [hnumber] at hof
  exact Except.ok.inj (hof.symm.trans number.of_value)

/-- Items do not change what an invoice is called. -/
theorem New.withItems (h : inv.New number) (hitems : inv.withItems items = .ok after) :
    after.New number := by
  -- the moment does not matter when an item is added
  refine withItems_induction (.midnight inv.dueDate) (fun hchange h => ?_) h hitems
  exact ⟨(number_of_change hchange).trans h.number_eq,
    (constant_of_change hchange).2.1.trans h.version_eq, h.oneCurrency.change hchange⟩

/-- A prorated invoice is made under the number that it is given. -/
theorem new_of_prorate {start finish : Given} {c : Counter}
    (h : ((prorate start finish (pure number) today fresh).on inv c).1.1 = .ok after) :
    after.New number := by
  rw [on_prorate] at h
  split at h
  next =>
    obtain ⟨number', hnumber, h⟩ := Except.bind_eq_ok_iff.1 h
    obtain rfl : number = number' := Except.ok.inj hnumber
    obtain ⟨draft, hdraft, h⟩ := Except.bind_eq_ok_iff.1 h
    exact (new_of_create hdraft rfl).withItems h
  next => cases h
  next => cases h

end Invoice

/-! ## Calls that make new invoices -/

/-- A call that makes a new invoice. -/
inductive Creation where
  | create (fields : InvoiceFields) (items : List LineItem) (day : Option Date)
  | prorate (id : String) (start finish : Given) (day : Option Date)

/-- The letters of the series in which a new invoice is numbered. -/
def Creation.letters (settings : Settings) : Creation → String
  | create .. => settings.invoiceSeries.letters
  | prorate .. => settings.prorationSeries.letters

namespace Service

open Procedure

variable {σ : Type}

/-- The draft with items that is made under a number. -/
def drafted (s : Service σ) (f : InvoiceFields) (items : List LineItem) (day : Option Date)
    (number : InvoiceNumber) (fresh : Fresh) : Except Failure Invoice := do
  let draft ← Invoice.create { f with number := .text number.value } (s.today day) fresh
  draft.withItems items

theorem createInvoice_eq (s : Service σ) (f : InvoiceFields) (items : List LineItem)
    (day : Option Date) :
    s.createInvoice f items day =
      s.storeNew s.settings.invoiceSeries.letters (s.drafted f items day) := rfl

/-- Carries out a call that makes a new invoice. -/
def carryOut (s : Service σ) : Creation → Call σ Invoice
  | .create fields items day => s.createInvoice fields items day
  | .prorate id start finish day => s.prorate id start finish day

variable {k : Keeping σ} {l : k.Listing} {s : Service (Shared σ)}
  {others : Shared σ → List Intrusion} {desk after : Desk (Shared σ)}

/-- A draft is new, and its identifier is the one that has been drawn for it. -/
theorem new_of_drafted {s : Service σ} {f : InvoiceFields} {items : List LineItem}
    {day : Option Date} {number : InvoiceNumber} {fresh : Fresh} {inv : Invoice}
    (h : s.drafted f items day number fresh = .ok inv) :
    inv.New number ∧ inv.id = fresh.invoice ∧ inv.Consistent := by
  obtain ⟨draft, hdraft, hitems⟩ := Except.bind_eq_ok_iff.1 h
  have hid : draft.id = fresh.invoice := by
    obtain ⟨_, _, _, _, _, _, _, _, -, -, -, -, -, -, -, -, -, -, rfl⟩ :=
      Invoice.restore_eq_ok_iff.1 (Invoice.create_eq_ok hdraft).1
    rfl
  refine ⟨(Invoice.new_of_create hdraft rfl).withItems hitems, ?_⟩
  -- nothing but the items changes when items are added
  refine Invoice.withItems_induction (P := fun inv => inv.id = fresh.invoice ∧ inv.Consistent)
    s.clock (fun hchange ⟨hid, h⟩ => ?_) ⟨hid, Invoice.consistent_of_create hdraft⟩ hitems
  exact ⟨(Invoice.constant_of_change hchange).1.trans hid, h.change hchange⟩

/-- To load an invoice writes nothing, whether it is found or not. -/
theorem looked_getInvoice (hk : k.Lawful) (repository : s.repository = k.repository.shared others)
    (h : k.Reached desk.store.store) {id : String} {r : Except StoreFailure Invoice}
    (hon : (s.getInvoice id).on desk = (r, after)) : Desk.Looked k 0 desk after := by
  have hread := hk.findById id (hk.sound (h.found others))
  obtain ⟨found, mid, haccess, hlooked⟩ :
      ∃ found mid, (Call.access (s.repository.findById id)).on desk = (found, mid) ∧
        Desk.Looked k 0 desk mid := by
    rw [repository]
    exact ⟨_, on_access_visiting h hread⟩
  simp only [getInvoice, on_bind, haccess] at hon
  rcases found with e | _ | inv <;> obtain ⟨rfl, rfl⟩ := Prod.mk.inj hon <;> exact hlooked

/-- Whatever is created or prorated, a new invoice is stored or nothing is written. -/
theorem attempted_carryOut (hk : k.Lawful) (hl : l.Lawful)
    (repository : s.repository = k.repository.shared others) (h : k.Reached desk.store.store)
    (c : Creation) {r : Except StoreFailure Invoice} (hon : (s.carryOut c).on desk = (r, after)) :
    Desk.Attempted l (c.letters s.settings)
      (s.settings.attempts.count * s.settings.attempts.count) desk r.toOption after := by
  cases c with
  | create fields items day =>
      exact attempted_storeNew hk hl repository (fun hmade => (new_of_drafted hmade).1)
        s.settings.invoiceSeries.isSeries h hon
  | prorate id start finish day =>
      cases hget : (s.getInvoice id).on desk with
      | mk found mid =>
          have hlooked := looked_getInvoice hk repository h hget
          have hfirst := hlooked.mono
            (Nat.zero_le (s.settings.attempts.count * s.settings.attempts.count))
          simp only [carryOut, prorate, on_bind, hget] at hon
          cases found with
          | error e =>
              obtain ⟨rfl, rfl⟩ := Prod.mk.inj hon
              exact hfirst.attempted
          | ok source =>
              simp only [Call.on_ofResult] at hon
              cases hchecked :
                  ((Invoice.checkProration start finish (s.today day)).on source).1 with
              | error e =>
                  rw [hchecked] at hon
                  obtain ⟨rfl, rfl⟩ := Prod.mk.inj hon
                  exact hfirst.attempted
              | ok _ =>
                  rw [hchecked] at hon
                  have hstored := attempted_storeNew hk hl repository Invoice.new_of_prorate
                    s.settings.prorationSeries.isSeries hlooked.quiet.reached hon
                  have hboth := hlooked.then_attempted hstored
                  rwa [Nat.zero_add] at hboth

end Service

/-! ## Turns -/

/-- A call that makes a new invoice, with the desk before it, what it gives and the desk after
it. -/
structure Turn (σ : Type) where
  creation : Creation
  before : Desk (Shared σ)
  result : Except StoreFailure Invoice
  after : Desk (Shared σ)

/-- The turns that a service takes, one after the other and each at its own present moment. -/
def Service.turns {σ : Type} (s : Service (Shared σ)) :
    List (Moment × Creation) → Desk (Shared σ) → List (Turn σ)
  | [], _ => []
  | (clock, c) :: orders, desk =>
      let (result, after) := ({ s with clock }.carryOut c).on desk
      ⟨c, desk, result, after⟩ :: s.turns orders after

namespace Turn

variable {σ : Type} {k : Keeping σ} {l : k.Listing} {settings : Settings} {turn : Turn σ}
  {s : Service (Shared σ)} {others : Shared σ → List Intrusion}

/-- The number of the invoice that has been made, if one has. -/
def created? (turn : Turn σ) : Option InvoiceNumber := turn.result.toOption.map Invoice.number

/-- A turn that gets in nobody's way. -/
structure Safe {σ : Type} {k : Keeping σ} (l : k.Listing) (settings : Settings) (turn : Turn σ) :
    Prop where
  /-- no more numbers are drawn than the square of the attempts -/
  drew : turn.before.Drew (settings.attempts.count * settings.attempts.count) turn.after
  /-- our own calls leave whatever they find in the store -/
  kept : ∃ own, turn.after.store.visits = own ++ turn.before.store.visits ∧
    ∀ v ∈ own, ∀ id st, k.storedAt v.before id = some st → k.storedAt v.after id = some st
  /-- a turn that fails has written nothing -/
  failed : ∀ e, turn.result = .error e → Shared.Quiet k turn.before.store turn.after.store
  /-- a new invoice is stored at version 1, with a number of the series that nothing else has -/
  stored : ∀ saved, turn.result = .ok saved →
    Shared.Placed l turn.before.store turn.after.store saved ∧
      saved.number.series = turn.creation.letters settings

theorem safe_of_attempted (h : Desk.Attempted l (turn.creation.letters settings)
    (settings.attempts.count * settings.attempts.count) turn.before turn.result.toOption
    turn.after) : turn.Safe l settings where
  drew := h.drew
  kept := by
    cases hresult : turn.result.toOption with
    | none =>
        obtain ⟨own, hown, hquiet⟩ := (h.quiet hresult).visits
        exact ⟨own, hown, fun v hv id st hst => (hquiet v hv).symm ▸ hst⟩
    | some saved =>
        obtain ⟨inv, found, own, hown, hquiet, hkept⟩ := (h.placed saved hresult).1.visits
        refine ⟨_, hown, fun v hv id st hst => ?_⟩
        rcases List.mem_cons.1 hv with rfl | hv
        · exact hkept id st hst
        · exact (hquiet v hv).symm ▸ hst
  failed e he := h.quiet (Except.toOption_eq_none_iff.2 ⟨e, he⟩)
  stored saved hsaved := by
    obtain ⟨hplaced, hseries, -⟩ := h.placed saved (Except.toOption_eq_some_iff.2 hsaved)
    exact ⟨hplaced, hseries⟩

/-- Whatever has come of a turn, the store has come about by saving and deleting. -/
theorem Safe.reached (h : turn.Safe l settings) : k.Reached turn.after.store.store := by
  cases hresult : turn.result with
  | error e => exact (h.failed e hresult).reached
  | ok saved => exact (h.stored saved hresult).1.reached

end Turn

namespace Service

variable {σ : Type} {k : Keeping σ} {l : k.Listing} {s : Service (Shared σ)}
  {others : Shared σ → List Intrusion} {desk : Desk (Shared σ)}

/-- The numbers that have been given out in a run, in this order. -/
def numbersOf (turns : List (Turn σ)) : List InvoiceNumber := turns.filterMap Turn.created?

/-- Every turn of a run is safe, and the numbers that are given out are drawn one after the other,
beginning with the next one of the counter. -/
theorem safe_turns (hk : k.Lawful) (hl : l.Lawful)
    (repository : s.repository = k.repository.shared others) (h : k.Reached desk.store.store)
    (orders : List (Moment × Creation)) :
    (∀ turn ∈ s.turns orders desk, turn.Safe l s.settings) ∧
      (∀ number ∈ numbersOf (s.turns orders desk), desk.counter.next ≤ number.sequence) ∧
      (numbersOf (s.turns orders desk)).Pairwise fun a b => a.sequence < b.sequence := by
  induction orders generalizing desk with
  | nil => exact ⟨List.forall_mem_nil _, List.forall_mem_nil _, .nil⟩
  | cons order orders ih =>
      obtain ⟨clock, c⟩ := order
      cases hon : ({ s with clock }.carryOut c).on desk with
      | mk result after =>
          have hattempted := attempted_carryOut (s := { s with clock }) hk hl repository h c hon
          have hsafe : Turn.Safe l s.settings ⟨c, desk, result, after⟩ :=
            Turn.safe_of_attempted hattempted
          obtain ⟨hturns, hlower, hpairwise⟩ := ih hsafe.reached
          have hgrown := hattempted.drew.1
          have hcons : s.turns ((clock, c) :: orders) desk =
              ⟨c, desk, result, after⟩ :: s.turns orders after := by
            rw [turns, hon]
          rw [hcons]
          refine ⟨List.forall_mem_cons.2 ⟨hsafe, hturns⟩, ?_⟩
          cases result with
          | error e =>
              -- nothing has been given out
              exact ⟨fun number hnumber => hgrown.trans (hlower number hnumber), hpairwise⟩
          | ok saved =>
              obtain ⟨-, hfirst, hnext⟩ := (hattempted.placed saved rfl).2
              have hnumbers : numbersOf (⟨c, desk, .ok saved, after⟩ :: s.turns orders after) =
                  saved.number :: numbersOf (s.turns orders after) := rfl
              rw [hnumbers]
              constructor
              · intro number hnumber
                rcases List.mem_cons.1 hnumber with rfl | hrest
                · exact hfirst
                · exact hgrown.trans (hlower number hrest)
              · refine .cons (fun number hnumber => ?_) hpairwise
                have hlater : after.counter.next ≤ number.sequence := hlower number hnumber
                have hsooner : (saved.number.sequence : Int) < after.counter.next := hnext
                omega

end Service

/-- Making new invoices is safe under any race for their numbers. Others may save and delete
whatever they like before each call on the store. Every turn draws at most the square of the
attempts in numbers; it changes or removes nothing that it finds stored; if it succeeds, its last
call has stored the new invoice at version 1 under a number of its series that no other stored
invoice has; and if it fails, it has written nothing. Over a run of turns the numbers that are given
out only grow, in both series together, so none is given out twice. -/
theorem creation_is_safe (b : Backend) (s : Service (Shared b.Store))
    (others : Shared b.Store → List Intrusion) (desk : Desk (Shared b.Store))
    (orders : List (Moment × Creation))
    (repository : s.repository = b.keeping.repository.shared others)
    (reached : b.keeping.Reached desk.store.store) :
    (∀ turn ∈ s.turns orders desk, turn.Safe b.listing s.settings) ∧
      (Service.numbersOf (s.turns orders desk)).Pairwise (fun a b => a.sequence < b.sequence) ∧
      (Service.numbersOf (s.turns orders desk)).Nodup := by
  obtain ⟨hsafe, -, hpairwise⟩ :=
    Service.safe_turns b.lawful b.listing_lawful repository reached orders
  refine ⟨hsafe, hpairwise, hpairwise.imp fun {x y} hlt heq => ?_⟩
  rw [heq] at hlt
  exact lt_irrefl _ hlt

namespace Invoice

/-- Another writer, who saves an invoice under the first number of the counter as soon as that has
been found to be free. -/
def sampleRival (shared : Shared MemoryStore) : List Intrusion :=
  if shared.visits.length = 1 then
    [.save { sample with
      id := ⟨"rival", by decide⟩
      number := ⟨"INV-001000", by decide⟩ }]
  else []

/-- A service that shares a store in memory with the other writer. -/
def sampleRacing : Service (Shared MemoryStore) where
  repository := MemoryStore.repository.shared sampleRival
  settings := ⟨⟨"postgresql", "localhost", []⟩, .invoices, .prorations, .five, .info, false⟩
  clock := (Moment.midnight sampleDay).atUniversal
  fresh := .following

/-- Where it begins. -/
def sampleDesk : Desk (Shared MemoryStore) := ⟨⟨MemoryStore.empty, []⟩, .start, 0⟩

/-- A recurring invoice is created, and then prorated for half a month. -/
def sampleOrders : List (Moment × Creation) :=
  [(sampleRacing.clock,
      .create { sampleFields with type := .text "RECURRING", frequency := .text "MONTHLY" }
        [.sample] none),
    (sampleRacing.clock,
      .prorate (Fresh.following 1).invoice.text (.day sampleDay) (.day ⟨2026, 1, 16, by decide⟩)
        none)]

/-- The first number is lost to the other writer, and the two invoices get the two numbers behind
it. -/
theorem creation_is_safe_sample :
    Backend.memory.keeping.Reached sampleDesk.store.store ∧
      (Service.numbersOf (sampleRacing.turns sampleOrders sampleDesk)).map InvoiceNumber.value =
        ["INV-001001", "PRO-001002"] ∧
      (∀ turn ∈ sampleRacing.turns sampleOrders sampleDesk,
        turn.Safe Backend.memory.listing sampleRacing.settings) ∧
      (Service.numbersOf (sampleRacing.turns sampleOrders sampleDesk)).Pairwise
        fun a b => a.sequence < b.sequence := by
  have hreached : Backend.memory.keeping.Reached sampleDesk.store.store := .empty
  have hnumbers : (Service.numbersOf (sampleRacing.turns sampleOrders sampleDesk)).map
      InvoiceNumber.value = ["INV-001001", "PRO-001002"] := by decide +kernel
  obtain ⟨hsafe, hpairwise, -⟩ :=
    creation_is_safe .memory sampleRacing sampleRival sampleDesk sampleOrders rfl hreached
  exact ⟨hreached, hnumbers, hsafe, hpairwise⟩

end Invoice

end Billing
