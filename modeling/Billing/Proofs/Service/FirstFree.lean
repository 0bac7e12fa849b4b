import Billing.Proofs.Service.Creation
import Billing.Proofs.Store.Added

set_option autoImplicit false

/-! # New invoices get the first free number

A service with a store of its own, which nobody else writes, draws numbers one after the other until
one is free. That is the first free one from the value of the counter on, if it is among those that
may be tried (`Service.on_freeNumber?_of_firstFree`); otherwise there is none
(`Service.on_freeNumber?_of_taken`). The number is still free when the invoice is saved, so there is
no second attempt (`Service.on_storeNew_of_firstFree`).
-/

namespace Billing

open Access InvoiceNumber Procedure

/-! ## First free numbers -/

namespace Keeping.Listing

variable {σ : Type} {k : Keeping σ} {l : k.Listing} {store : σ} {letters : String} {c n : Nat}

/-- The first value from `c` on whose number in a series is free. -/
structure FirstFree (l : k.Listing) (store : σ) (letters : String) (c n : Nat) : Prop where
  le : c ≤ n
  taken : ∀ m, c ≤ m → m < n → l.HasNumber store (textOf letters m)
  free : ¬ l.HasNumber store (textOf letters n)

/-- Behind a number that is taken, the first free one is the same. -/
theorem FirstFree.next (h : l.FirstFree store letters c n) (hne : c ≠ n) :
    l.FirstFree store letters (c + 1) n where
  le := Nat.lt_of_le_of_ne h.le hne
  taken m hm := h.taken m (Nat.le_of_succ_le hm)
  free := h.free

end Keeping.Listing

namespace Service

variable {σ : Type} {k : Keeping σ} {l : k.Listing} {s : Service σ} {desk : Desk σ}
  {letters : String} {c n attempts : Nat} {inv : Invoice}

/-! ## Drawing numbers alone -/

section Alone

variable (hl : l.Lawful) (repository : s.repository = k.repository)
  (hletters : isSeries letters.toList = true) (h : k.Sound desk.store)
  (hcounter : desk.counter.next = c)
include hl repository hletters h hcounter

/-- One more number is drawn. If it is taken, the search goes on behind it. -/
theorem freeNumber?_step (hle : c ≤ 999999) (attempts : Nat) :
    ∃ number, number.value = textOf letters c ∧
      (l.HasNumber desk.store (textOf letters c) →
        (s.freeNumber? letters (attempts + 1)).on desk =
          (s.freeNumber? letters attempts).on { desk with counter := ⟨c + 1⟩ }) ∧
      (¬ l.HasNumber desk.store (textOf letters c) →
        (s.freeNumber? letters (attempts + 1)).on desk =
          (.ok (some number), { desk with counter := ⟨c + 1⟩ })) := by
  obtain ⟨number, hnumber, hvalue⟩ := exists_ofCounter hletters hle
  have hexists := hl.existsNumber number.value h
  have htaken : ((l.entries desk.store).any fun e => l.number e.2 == number.value) = true ↔
      l.HasNumber desk.store (textOf letters c) := by
    rw [hvalue, List.any_eq_true]
    exact exists_congr fun e => and_congr_right fun _ => beq_iff_eq
  have hstep : (s.freeNumber? letters (attempts + 1)).on desk =
      (if ((l.entries desk.store).any fun e => l.number e.2 == number.value) = true then
        s.freeNumber? letters attempts else return some number : Call σ _).on
          { desk with counter := ⟨c + 1⟩ } := by
    simp only [freeNumber?, on_bind, on_drawNumber, hcounter, hnumber, refusing,
      Call.on_access, repository, hexists]
  refine ⟨number, hvalue, fun hhas => ?_, fun hfree => ?_⟩
  · rw [hstep, if_pos (htaken.2 hhas)]
  · rw [hstep, if_neg (mt htaken.1 hfree), on_pure]

/-- If the first free number is among those that may be tried, it is the last one that is drawn. -/
theorem on_freeNumber?_of_firstFree (hfree : l.FirstFree desk.store letters c n)
    (hlt : n < c + attempts) (hle : n ≤ 999999) :
    ∃ number, number.value = textOf letters n ∧
      (s.freeNumber? letters attempts).on desk =
        (.ok (some number), { desk with counter := ⟨n + 1⟩ }) := by
  induction attempts generalizing desk c with
  | zero => exact absurd hlt (not_lt.2 hfree.le)
  | succ attempts ih =>
      obtain ⟨number, hvalue, htaken, hfound⟩ := freeNumber?_step hl repository hletters h hcounter
        (hfree.le.trans hle) attempts
      by_cases hcn : c = n
      · subst hcn
        exact ⟨number, hvalue, hfound hfree.free⟩
      · -- the search goes on with the counter one further
        let next : Desk σ := { desk with counter := ⟨c + 1⟩ }
        have hnext : next.counter.next = (c + 1 : Nat) := by
          push_cast
          rfl
        rw [htaken (hfree.taken c le_rfl (Nat.lt_of_le_of_ne hfree.le hcn))]
        exact ih (show k.Sound next.store from h) hnext (hfree.next hcn) (by omega)

/-- If all that may be tried are taken, all of them are used up. -/
theorem on_freeNumber?_of_taken (htaken : ∀ m, c ≤ m → m < c + attempts →
    m ≤ 999999 ∧ l.HasNumber desk.store (textOf letters m)) :
    (s.freeNumber? letters attempts).on desk =
      (.ok none, { desk with counter := ⟨c + attempts⟩ }) := by
  induction attempts generalizing desk c with
  | zero =>
      rw [Nat.cast_zero, add_zero, ← hcounter]
      rfl
  | succ attempts ih =>
      obtain ⟨hle, hhas⟩ := htaken c le_rfl (by omega)
      obtain ⟨-, -, hgoes, -⟩ := freeNumber?_step hl repository hletters h hcounter hle attempts
      let next : Desk σ := { desk with counter := ⟨c + 1⟩ }
      have hnext : next.counter.next = (c + 1 : Nat) := by
        push_cast
        rfl
      have hrest := ih (show k.Sound next.store from h) hnext
        fun m hm hlt => htaken m (by omega) (by omega)
      have hsum : ((c + 1 : Nat) + attempts : Int) = c + (attempts + 1 : Nat) := by
        push_cast
        ring
      rw [hgoes hhas, hrest, hsum]

theorem on_allocateNumber_of_firstFree (hfree : l.FirstFree desk.store letters c n)
    (hlt : n < c + s.settings.attempts.count) (hle : n ≤ 999999) :
    ∃ number, number.value = textOf letters n ∧
      (s.allocateNumber letters).on desk =
        (.ok number, { desk with counter := ⟨n + 1⟩ }) := by
  obtain ⟨number, hvalue, hfound⟩ :=
    on_freeNumber?_of_firstFree hl repository hletters h hcounter hfree hlt hle
  refine ⟨number, hvalue, ?_⟩
  rw [allocateNumber, on_bind, hfound]
  rfl

theorem on_allocateNumber_of_taken (htaken : ∀ m, c ≤ m → m < c + s.settings.attempts.count →
    m ≤ 999999 ∧ l.HasNumber desk.store (textOf letters m)) :
    (s.allocateNumber letters).on desk =
      (.error (.refused (.broken (.freeNumber letters s.settings.attempts.count))),
        { desk with counter := ⟨c + s.settings.attempts.count⟩ }) := by
  rw [allocateNumber, on_bind,
    on_freeNumber?_of_taken hl repository hletters h hcounter htaken]
  rfl

end Alone

/-! ## Storing alone -/

section Storing

variable {make : InvoiceNumber → Fresh → Except Failure Invoice} {after : Desk σ}

/-- A save that is not refused because of the number is not tried again. -/
theorem on_saveUnlessTaken?
    (huntaken : ∀ number,
      ((s.repository.save inv).on desk.store).1 ≠ .error (.numberTaken number)) :
    (s.saveUnlessTaken? inv).on desk =
      (((s.repository.save inv).on desk.store).1.map some,
        { desk with store := ((s.repository.save inv).on desk.store).2 }) := by
  simp only [saveUnlessTaken?, on_tryCatch, on_bind, Call.on_access]
  cases hsave : ((s.repository.save inv).on desk.store).1 with
  | ok saved => rfl
  | error e =>
      cases e with
      | numberTaken number => exact absurd hsave (huntaken number)
      | _ => rfl

/-- An attempt that fails, or that stores the invoice, is the only one. -/
theorem on_storeNew_of_attempt {r : Except StoreFailure Invoice}
    (h : (s.attempt letters make).on desk = (r.map some, after)) :
    (s.storeNew letters make).on desk = (r, after) := by
  have hcount := s.settings.attempts.count_pos
  rw [storeNew, on_bind, ← Nat.succ_pred_eq_of_pos hcount, storedNew?_succ, on_bind, h]
  cases r <;> rfl

variable (hl : l.Lawful) (repository : s.repository = k.repository)
  (hletters : isSeries letters.toList = true) (h : k.Sound desk.store)
  (hcounter : desk.counter.next = c)
include hl repository hletters h hcounter

/-- If a number is free, the invoice is made under the first one that is. What comes of making and
saving it comes of the call, as nobody else can have taken the number since. -/
theorem on_storeNew_of_firstFree (hfree : l.FirstFree desk.store letters c n)
    (hlt : n < c + s.settings.attempts.count) (hle : n ≤ 999999)
    (hmake : ∀ {number fresh inv}, make number fresh = .ok inv → inv.New number) :
    ∃ number, number.value = textOf letters n ∧
      (s.storeNew letters make).on desk = match make number (s.fresh desk.made) with
        | .error e => (.error (.refused e), ⟨desk.store, ⟨n + 1⟩, desk.made + 1⟩)
        | .ok inv => (((k.repository.save inv).on desk.store).1,
            ⟨((k.repository.save inv).on desk.store).2, ⟨n + 1⟩, desk.made + 1⟩) := by
  obtain ⟨number, hvalue, hallocate⟩ :=
    on_allocateNumber_of_firstFree hl repository hletters h hcounter hfree hlt hle
  refine ⟨number, hvalue, on_storeNew_of_attempt ?_⟩
  simp only [attempt, on_bind, hallocate, on_drawFresh, Call.on_ofResult]
  cases hmade : make number (s.fresh desk.made) with
  | error e => rfl
  | ok inv =>
      have hnew := hmake hmade
      have huntaken : ∀ text,
          ((s.repository.save inv).on desk.store).1 ≠ .error (.numberTaken text) := by
        intro text htaken
        rw [repository] at htaken
        -- only another invoice can have the number, and it was free before
        obtain ⟨e, he, -, hnumber⟩ := hl.taken h (Prod.ext htaken rfl)
        rw [hnew.number_eq, hvalue] at hnumber
        exact hfree.free ⟨e, he, hnumber⟩
      have hsaved : (s.saveUnlessTaken? inv).on ⟨desk.store, ⟨n + 1⟩, desk.made + 1⟩ = _ :=
        on_saveUnlessTaken? huntaken
      rw [repository] at hsaved
      exact hsaved

end Storing

end Service

/-! ## Creating alone -/

namespace Backend

/-- What comes of an invoice that has been made, or could not be, under a free number and with an
identifier that has been drawn for it: the result of the call, and the store after it. -/
inductive Created (b : Backend) (number : InvoiceNumber) (id : Identifier)
    (made : Except Failure Invoice) (store : b.Store) :
    Except StoreFailure Invoice → b.Store → Prop where
  /-- it cannot be created, or one of its items cannot be added -/
  | unmade {e : Failure} (made_eq : made = .error e) :
      Created b number id made store (.error (.refused e)) store
  /-- what the store computes of it cannot be computed -/
  | incomputable {inv : Invoice} {e : Failure} (made_eq : made = .ok inv)
      (new : b.keeping.storedAt store id.text = none) (computes_eq : b.computes inv = .error e) :
      Created b number id made store (.error (.refused e)) store
  /-- it is stored at version 1 under its number, and nothing else changes -/
  | stored {inv : Invoice} {after : b.Store} {st : b.keeping.Stored} (made_eq : made = .ok inv)
      (new : b.keeping.storedAt store id.text = none) (computes_eq : b.computes inv = .ok ())
      (id_eq : inv.id = id) (number_eq : inv.number = number)
      (stored_eq : b.keeping.storedAt after id.text = some st)
      (version_eq : b.keeping.version st = 1) (listed : b.listing.number st = number.value)
      (read_eq : b.keeping.read st = .ok ((inv.atVersion 1).reread b.keeping.times))
      (others : ∀ other, other ≠ id.text →
        b.keeping.storedAt after other = b.keeping.storedAt store other) :
      Created b number id made store (.ok (inv.atVersion 1)) after
  /-- something is stored under the identifier, so that is not new -/
  | present {inv : Invoice} {st : b.keeping.Stored} (made_eq : made = .ok inv)
      (stored_eq : b.keeping.storedAt store id.text = some st) :
      Created b number id made store
        (.error (.conflict id.text 0 (some (b.keeping.version st)))) store

variable {b : Backend} {store : b.Store} {inv : Invoice} {number : InvoiceNumber}

/-- A save of what has been made under a free number leads to one of these. -/
theorem created_of_made (h : b.keeping.Reached store) (hnew : inv.New number)
    (hconsistent : inv.Consistent) (hfree : ¬ b.listing.HasNumber store number.value) :
    b.Created number inv.id (.ok inv) store ((b.keeping.repository.save inv).on store).1
      ((b.keeping.repository.save inv).on store).2 := by
  cases hstored : b.keeping.storedAt store inv.id.text with
  | some st =>
      rw [on_save_of_present h hnew.version_eq hstored]
      exact .present rfl hstored
  | none =>
      have hitems : b.Admits inv.items := by
        cases b with
        | memory => trivial
        | tables => exact hconsistent.ids
      rw [← hnew.number_eq] at hfree
      obtain ⟨after, hsave⟩ := on_save_of_new h hnew.version_eq hstored hfree hitems
      rw [hsave]
      cases hcomputes : b.computes inv with
      | error e =>
          rw [hcomputes] at hsave
          obtain rfl := b.lawful.save_error hsave
          exact .incomputable rfl hstored hcomputes
      | ok _ =>
          rw [hcomputes] at hsave
          have hsound := b.lawful.sound h
          obtain ⟨st, hst, hlisted, hversion, hread⟩ :=
            b.listing_lawful.stored_of_save b.lawful hsound hnew.oneCurrency hsave
          rw [hnew.version_eq, zero_add] at hversion
          rw [hversion] at hread
          exact .stored rfl hstored hcomputes rfl hnew.number_eq hst hversion
            (hnew.number_eq ▸ hlisted) hread (b.lawful.save hsound hsave).others

end Backend

namespace Service

/-- An invoice that is created gets the first free number, if nobody else writes the store. Let that
be the number of the value `n`, from the value `c` of the counter on. If it is among those that may
be tried, the counter is left behind it, and the invoice is stored under it at version 1 with
nothing else changed, or it is refused with nothing changed at all: because it cannot be created,
because an item cannot be added, because the snapshot of it cannot be computed, or because the
identifier that has been drawn for it is not new. If all that may be tried are taken, the call fails
because of that; the counter is left behind them, and nothing else changes. -/
theorem createInvoice_takes_first_free (b : Backend) (s : Service b.Store) (desk : Desk b.Store)
    (f : InvoiceFields) (items : List LineItem) (day : Option Date) (c : Nat)
    (repository : s.repository = b.keeping.repository) (reached : b.keeping.Reached desk.store)
    (counter : desk.counter.next = c) :
    (∀ n, b.listing.FirstFree desk.store s.settings.invoiceSeries.letters c n →
      n < c + s.settings.attempts.count → n ≤ 999999 →
        ∃ number r store, number.value = textOf s.settings.invoiceSeries.letters n ∧
          (s.createInvoice f items day).on desk = (r, ⟨store, ⟨n + 1⟩, desk.made + 1⟩) ∧
          b.Created number (s.fresh desk.made).invoice
            (s.drafted f items day number (s.fresh desk.made)) desk.store r store) ∧
    ((∀ m, c ≤ m → m < c + s.settings.attempts.count → m ≤ 999999 ∧
        b.listing.HasNumber desk.store (textOf s.settings.invoiceSeries.letters m)) →
      (s.createInvoice f items day).on desk =
        (.error (.refused (.broken (.freeNumber s.settings.invoiceSeries.letters
            s.settings.attempts.count))),
          { desk with counter := ⟨c + s.settings.attempts.count⟩ })) := by
  have hsound := b.lawful.sound reached
  have hseries := s.settings.invoiceSeries.isSeries
  rw [createInvoice_eq]
  constructor
  · intro n hfree hlt hle
    have hmake : ∀ {number fresh inv}, s.drafted f items day number fresh = .ok inv →
        inv.New number := fun hmade => (new_of_drafted hmade).1
    obtain ⟨number, hvalue, hon⟩ := on_storeNew_of_firstFree b.listing_lawful repository hseries
      hsound counter hfree hlt hle @hmake
    cases hmade : s.drafted f items day number (s.fresh desk.made) with
    | error e =>
        rw [hmade] at hon
        exact ⟨number, _, _, hvalue, hon, hmade ▸ .unmade rfl⟩
    | ok inv =>
        rw [hmade] at hon
        obtain ⟨hnew, hid, hconsistent⟩ := new_of_drafted hmade
        refine ⟨number, _, _, hvalue, hon, ?_⟩
        rw [hmade, ← hid]
        exact Backend.created_of_made reached hnew hconsistent (hvalue ▸ hfree.free)
  · intro htaken
    refine on_storeNew_of_attempt (r := .error _) ?_
    rw [attempt, on_bind, on_allocateNumber_of_taken b.listing_lawful repository hseries hsound
      counter htaken]
    rfl

end Service

namespace Invoice

/-- Tables in which the number of the next value of the counter is taken already. -/
def sampleTakenDesk : Desk Backend.tables.Store where
  store := ((Tables.repository.save
    { sample with number := ⟨"INV-000041", by decide⟩ }).on Tables.empty).2
  counter := ⟨41⟩
  made := 1

/-- A service with these tables to itself. -/
def sampleWithTables : Service Backend.tables.Store where
  repository := Tables.repository
  settings := sampleRacing.settings
  clock := sampleRacing.clock
  fresh := .following

/-- The taken number is skipped, and the next one is given to the invoice. -/
theorem createInvoice_takes_first_free_sample :
    Backend.tables.keeping.Reached sampleTakenDesk.store ∧
      Backend.tables.listing.FirstFree sampleTakenDesk.store "INV" 41 42 ∧
      ((sampleWithTables.createInvoice sampleFields [.sample] none).on
        sampleTakenDesk).1.toOption.map (fun inv => inv.number.value) = some "INV-000042" ∧
      ∃ number r store, number.value = "INV-000042" ∧
        (sampleWithTables.createInvoice sampleFields [.sample] none).on sampleTakenDesk =
          (r, ⟨store, ⟨43⟩, 2⟩) ∧
        Backend.tables.Created number (Fresh.following 1).invoice
          (sampleWithTables.drafted sampleFields [.sample] none number (.following 1))
          sampleTakenDesk.store r store := by
  have hreached : Backend.tables.keeping.Reached sampleTakenDesk.store := .save _ .empty
  have hfree : Backend.tables.listing.FirstFree sampleTakenDesk.store "INV" 41 42 :=
    ⟨by decide, by decide +kernel, by decide +kernel⟩
  obtain ⟨hfirst, -⟩ := Service.createInvoice_takes_first_free .tables sampleWithTables
    sampleTakenDesk sampleFields [.sample] none 41 rfl hreached rfl
  obtain ⟨number, r, store, hvalue, hon, hcreated⟩ := hfirst 42 hfree (by decide) (by decide)
  have htext : textOf "INV" 42 = "INV-000042" := by decide +kernel
  exact ⟨hreached, hfree, by decide +kernel, number, r, store, hvalue.trans htext, hon, hcreated⟩

end Invoice

end Billing
