import Billing.Proofs.Invoice.Prorated
import Billing.Proofs.Service.Creation
import Billing.Proofs.Store.Memory

set_option autoImplicit false

/-! # Prorations that fail

A service with a store of its own in memory, which nobody else writes, checks a proration before it
draws a number. What the check refuses leaves everything as it is. What passes the check is made
under the number that is drawn, so nothing but the store can refuse it; the number is used up by
then (`Service.prorate_eq_error`).
-/

namespace Billing

open Access Procedure

/-! ## Numbers that are drawn alone -/

/-- All that has been done is to draw numbers, at least `n` of them. -/
structure Desk.OnlyDrew {σ : Type} (n : Nat) (before after : Desk σ) : Prop where
  store_eq : after.store = before.store
  made_eq : after.made = before.made
  drew : before.counter.next + n ≤ after.counter.next

namespace MemoryStore

/-- Whether something is stored under a number. -/
def hasNumber (store : MemoryStore) (number : InvoiceNumber) : Bool :=
  store.entries.any fun e => hasText "number" number.value e.2

/-- Why an invoice that has not been stored before is not saved. -/
inductive Unsaved (store : MemoryStore) (new : Invoice) : StoreFailure → Prop where
  /-- the balance that is due cannot be computed, and a snapshot shows it -/
  | incomputable {failure : Failure} (snapshot : Snapshot.of new = .error failure)
      (balance : ∀ due, new.balanceDue ≠ .ok due) : Unsaved store new (.refused failure)
  /-- something else is stored under the identifier, which is not new -/
  | present {data : Json} (stored : store.dataAt? new.id.text = some data) :
      Unsaved store new (.conflict new.id.text 0 (some (versionOf data)))

/-- An invoice that is made under a free number can only be refused in these ways. -/
theorem unsaved_of_save {store after : MemoryStore} {new : Invoice} {number : InvoiceNumber}
    {r : Except StoreFailure Invoice} (hnew : new.New number)
    (hfree : store.hasNumber number = false) (hsave : (save new).on store = (r, after)) :
    (∃ saved, r = .ok saved) ∨
      ∃ e, r = .error e ∧ after = store ∧ store.Unsaved new e := by
  have hother : (store.entries.any fun e =>
      e.1 != new.id.text && hasText "number" new.number.value e.2) = false := by
    rw [List.any_eq_false]
    intro e he hboth
    rw [hnew.number_eq, Bool.and_eq_true] at hboth
    exact List.any_eq_false.1 hfree e he hboth.2
  rw [on_save, hother, hnew.version_eq] at hsave
  split at hsave
  next hstale =>
    obtain ⟨rfl, rfl⟩ := Prod.mk.inj hsave
    refine .inr ⟨_, rfl, rfl, ?_⟩
    cases hstored : store.dataAt? new.id.text with
    | none => simp [hstored, isStale, hnew.version_eq] at hstale
    | some data => exact .present hstored
  next =>
    rw [if_neg (by decide)] at hsave
    cases hof : Snapshot.of new with
    | ok snapshot =>
        rw [hof] at hsave
        obtain ⟨rfl, -⟩ := Prod.mk.inj hsave
        exact .inl ⟨_, rfl⟩
    | error failure =>
        rw [hof] at hsave
        obtain ⟨rfl, rfl⟩ := Prod.mk.inj hsave
        refine .inr ⟨_, rfl, rfl, .incomputable hof fun due hdue => ?_⟩
        obtain ⟨snapshot, hsnapshot⟩ := Snapshot.exists_of_balance hdue
        rw [hof] at hsnapshot
        cases hsnapshot

end MemoryStore

namespace Desk.OnlyDrew

variable {σ : Type} {m n : Nat} {before mid after : Desk σ}

theorem refl (desk : Desk σ) : OnlyDrew 0 desk desk := ⟨rfl, rfl, by omega⟩

theorem trans (first : OnlyDrew m before mid) (second : OnlyDrew n mid after) :
    OnlyDrew (m + n) before after := by
  refine ⟨second.store_eq.trans first.store_eq, second.made_eq.trans first.made_eq, ?_⟩
  have hfirst := first.drew
  have hsecond := second.drew
  omega

theorem mono (h : OnlyDrew m before after) (hle : n ≤ m) : OnlyDrew n before after := by
  refine ⟨h.store_eq, h.made_eq, ?_⟩
  have hdrew := h.drew
  omega

end Desk.OnlyDrew

namespace Service

variable {s : Service MemoryStore} {desk after : Desk MemoryStore} {letters : String} {n : Nat}
  {e : StoreFailure} {start finish : Given} {day : Option Date}

/-- Why a new invoice is not stored, although it can be made. -/
inductive Unstored (s : Service MemoryStore) (letters : String)
    (make : InvoiceNumber → Fresh → Except Failure Invoice) (desk after : Desk MemoryStore)
    (e : StoreFailure) : Prop where
  /-- no free number has been obtained -/
  | noNumber (allocated : ((s.allocateNumber letters).on desk).1 = .error e)
  /-- it is made under a free number, the last one that has been drawn, and not saved -/
  | unsaved {number : InvoiceNumber} {new : Invoice}
      (allocated : ((s.allocateNumber letters).on desk).1 = .ok number)
      (drawn : after.counter.next = number.sequence + 1)
      (made : make number (s.fresh desk.made) = .ok new)
      (refused : desk.store.Unsaved new e)

section Alone

variable (memory : s.repository = MemoryStore.repository)
include memory

/-- A number that is found to be free is the last one that has been drawn. -/
theorem onlyDrew_freeNumber? (hletters : isSeries letters.toList = true)
    {r : Except StoreFailure (Option InvoiceNumber)}
    (hon : (s.freeNumber? letters n).on desk = (r, after)) :
    desk.OnlyDrew (min n 1) after ∧
      ∀ number, r = .ok (some number) → desk.store.hasNumber number = false ∧
        after.counter.next = number.sequence + 1 := by
  induction n generalizing desk with
  | zero =>
      obtain ⟨rfl, rfl⟩ := Prod.mk.inj hon
      exact ⟨.refl _, fun _ hr => by cases hr⟩
  | succ n ih =>
      have hdraw : desk.OnlyDrew 1 { desk with counter := ⟨desk.counter.next + 1⟩ } :=
        ⟨rfl, rfl, le_rfl⟩
      rw [freeNumber?, on_bind, on_drawNumber] at hon
      cases hnumber : InvoiceNumber.ofCounter letters desk.counter.next with
      | error e =>
          rw [hnumber] at hon
          obtain ⟨rfl, rfl⟩ := Prod.mk.inj hon
          exact ⟨hdraw.mono (by omega), fun _ hr => by cases hr⟩
      | ok number =>
          obtain ⟨-, hsequence⟩ := InvoiceNumber.ofCounter_eq_ok hletters hnumber
          have haccess : (Call.access (s.repository.existsNumber number.value)).on
              { desk with counter := ⟨desk.counter.next + 1⟩ } =
                (.ok (desk.store.hasNumber number),
                  { desk with counter := ⟨desk.counter.next + 1⟩ }) := by
            rw [memory]
            rfl
          simp only [hnumber, refusing, on_bind, haccess] at hon
          split at hon
          next =>
            obtain ⟨hdrew, hfree⟩ := ih hon
            exact ⟨(hdraw.trans hdrew).mono (by omega), hfree⟩
          next hfree =>
            obtain ⟨rfl, rfl⟩ := Prod.mk.inj hon
            refine ⟨hdraw.mono (by omega), fun number' hr => ?_⟩
            obtain rfl := Option.some.inj (Except.ok.inj hr)
            exact ⟨Bool.eq_false_iff.2 hfree, congrArg (· + 1) hsequence.symm⟩

/-- To obtain a number, at least one is drawn. -/
theorem onlyDrew_allocateNumber (hletters : isSeries letters.toList = true)
    {r : Except StoreFailure InvoiceNumber}
    (hon : (s.allocateNumber letters).on desk = (r, after)) :
    desk.OnlyDrew 1 after ∧
      ∀ number, r = .ok number → desk.store.hasNumber number = false ∧
        after.counter.next = number.sequence + 1 := by
  cases hfound : (s.freeNumber? letters s.settings.attempts.count).on desk with
  | mk found mid =>
      obtain ⟨hdrew, hfree⟩ := onlyDrew_freeNumber? memory hletters hfound
      have hpos := s.settings.attempts.count_pos
      rw [min_eq_right hpos] at hdrew
      simp only [allocateNumber, on_bind, hfound] at hon
      rcases found with e | _ | number <;> obtain ⟨rfl, rfl⟩ := Prod.mk.inj hon
      case error => exact ⟨hdrew, fun _ hr => by cases hr⟩
      case ok.none => exact ⟨hdrew, fun _ hr => by cases hr⟩
      case ok.some =>
        refine ⟨hdrew, fun number' hr => hfree number' ?_⟩
        rw [Except.ok.inj hr]

variable {make : InvoiceNumber → Fresh → Except Failure Invoice}
  (hmake : ∀ number fresh, ∃ new, make number fresh = .ok new ∧ new.New number)
include hmake

/-- Since nobody else takes a number that is free, the first attempt to store a new invoice
succeeds or fails for good. When it fails, nothing has been written but a number has been drawn. -/
theorem attempt_cases (hletters : isSeries letters.toList = true)
    {r : Except StoreFailure (Option Invoice)}
    (hon : (s.attempt letters make).on desk = (r, after)) :
    (∃ saved, r = .ok (some saved)) ∨
      ∃ e, r = .error e ∧ after.store = desk.store ∧ desk.counter.next < after.counter.next ∧
        s.Unstored letters make desk after e := by
  cases hallocate : (s.allocateNumber letters).on desk with
  | mk found mid =>
      obtain ⟨hdrew, hfree⟩ := onlyDrew_allocateNumber memory hletters hallocate
      have hgrown : desk.counter.next < mid.counter.next := hdrew.drew
      simp only [attempt, on_bind, hallocate] at hon
      cases found with
      | error e =>
          obtain ⟨rfl, rfl⟩ := Prod.mk.inj hon
          exact .inr ⟨e, rfl, hdrew.store_eq, hgrown, .noNumber (congrArg Prod.fst hallocate)⟩
      | ok number =>
          obtain ⟨new, hmade, hnew⟩ := hmake number (s.fresh mid.made)
          obtain ⟨hunused, hsequence⟩ := hfree number rfl
          simp only [on_drawFresh, Call.on_ofResult, hmade, refusing, saveUnlessTaken?,
            on_tryCatch, on_bind, Call.on_access] at hon
          cases hsave : (s.repository.save new).on mid.store with
          | mk reply store =>
              have hcases := hsave
              rw [memory] at hcases
              rw [hsave] at hon
              rcases MemoryStore.unsaved_of_save hnew (hdrew.store_eq ▸ hunused) hcases with
                ⟨saved, rfl⟩ | ⟨e, rfl, rfl, hunsaved⟩
              case inl =>
                obtain ⟨rfl, -⟩ := Prod.mk.inj hon
                exact .inl ⟨saved, rfl⟩
              case inr =>
                -- a failure is only caught if the number has been taken
                have hthrown : (Except.error e, { mid with made := mid.made + 1 }) =
                    (r, after) := by
                  rw [← hon]
                  cases hunsaved <;> rfl
                obtain ⟨rfl, rfl⟩ := Prod.mk.inj hthrown
                rw [hdrew.made_eq] at hmade
                rw [hdrew.store_eq] at hunsaved
                exact .inr ⟨e, rfl, hdrew.store_eq, hgrown,
                  .unsaved (congrArg Prod.fst hallocate) hsequence hmade hunsaved⟩

theorem storeNew_eq_error (hletters : isSeries letters.toList = true)
    (hon : (s.storeNew letters make).on desk = (.error e, after)) :
    after.store = desk.store ∧ desk.counter.next < after.counter.next ∧
      s.Unstored letters make desk after e := by
  obtain ⟨n, hn⟩ : ∃ n, s.settings.attempts.count = n + 1 :=
    ⟨_, (Nat.sub_add_cancel s.settings.attempts.count_pos).symm⟩
  simp only [storeNew, hn, storedNew?_succ, on_bind] at hon
  cases hattempt : (s.attempt letters make).on desk with
  | mk r mid =>
      rw [hattempt] at hon
      rcases attempt_cases memory hmake hletters hattempt with
        ⟨saved, rfl⟩ | ⟨e', rfl, hstore, hcounter, hunstored⟩
      case inl => cases (Prod.mk.inj hon).1
      case inr =>
        obtain ⟨he, rfl⟩ := Prod.mk.inj hon
        obtain rfl := Except.error.inj he
        exact ⟨hstore, hcounter, hunstored⟩

end Alone

/-! ## Prorations -/

section Checked

variable {σ : Type}

/-- A proration is checked and found in order: the source is there, its items can be prorated, and
it is not due yet. -/
def Checks (s : Service σ) (desk : Desk σ) (id : String) (start finish : Given)
    (day : Option Date) (source : Invoice) : Prop :=
  (s.getInvoice id).on desk = (.ok source, desk) ∧
    ((Invoice.checkProration start finish (s.today day)).on source).1 = .ok ()

/-- The new invoice that a service makes of a source. -/
def prorated (s : Service σ) (start finish : Given) (day : Option Date) (source : Invoice)
    (number : InvoiceNumber) (fresh : Fresh) : Except Failure Invoice :=
  ((Invoice.prorate start finish (pure number) (s.today day) fresh).on source Counter.start).1.1

theorem Checks.unique {s : Service σ} {desk : Desk σ} {id : String} {source other : Invoice}
    (h : s.Checks desk id start finish day source)
    (h' : s.Checks desk id start finish day other) : source = other := by
  obtain ⟨hsame, -⟩ := Prod.mk.inj (h.1.symm.trans h'.1)
  exact Except.ok.inj hsame

/-- What passes the check is made and stored. -/
theorem Checks.on_prorate {s : Service σ} {desk : Desk σ} {id : String} {source : Invoice}
    (h : s.Checks desk id start finish day source) :
    (s.prorate id start finish day).on desk =
      (s.storeNew s.settings.prorationSeries.letters (s.prorated start finish day source)).on
        desk := by
  have hreads : ((Invoice.checkProration start finish (s.today day)).on source).2 = source :=
    congrArg Prod.snd (Invoice.on_checkProration start finish (s.today day) source)
  simp only [prorate, on_bind, h.1, h.2, Call.on_ofResult, refusing, hreads]
  rfl

end Checked

section InMemory

variable {id : String} {source : Invoice} (memory : s.repository = MemoryStore.repository)
include memory

/-- Looking up a source changes nothing, and what is found is in one currency. -/
theorem getInvoice_cases (id : String) (desk : Desk MemoryStore) :
    (∃ e, (s.getInvoice id).on desk = (.error e, desk)) ∨
      ∃ source, (s.getInvoice id).on desk = (.ok source, desk) ∧ source.OneCurrency := by
  have hfind : s.repository.findById id = MemoryStore.findById id := by
    rw [memory]
    rfl
  have hfound := MemoryStore.reads_findById id desk.store
  rw [← hfind] at hfound
  unfold Reads at hfound
  rw [getInvoice, on_bind, Call.on_access, hfound]
  cases desk.store.dataAt? id with
  | none => exact .inl ⟨_, rfl⟩
  | some data =>
      cases hloaded : MemoryStore.loaded data with
      | error e =>
          simp only [hloaded]
          exact .inl ⟨e, rfl⟩
      | ok source =>
          simp only [hloaded]
          refine .inr ⟨source, rfl, ?_⟩
          unfold MemoryStore.loaded at hloaded
          split at hloaded
          next => exact (Snapshot.proper_of_toInvoice (refusing_eq_ok_iff.1 hloaded)).oneCurrency
          next => cases hloaded

/-- What passes the check can be made under any number. -/
theorem Checks.exists_new (h : s.Checks desk id start finish day source) (number : InvoiceNumber)
    (fresh : Fresh) : ∃ new, s.prorated start finish day source number fresh = .ok new ∧
      new.New number := by
  have hcurrency : source.OneCurrency := by
    rcases getInvoice_cases memory id desk with ⟨e, he⟩ | ⟨found, hfound, hcurrency⟩
    · cases (Prod.mk.inj (h.1.symm.trans he)).1
    · obtain rfl := Except.ok.inj (Prod.mk.inj (h.1.symm.trans hfound)).1
      exact hcurrency
  obtain ⟨new, hnew⟩ := Invoice.exists_prorated hcurrency h.2 number fresh Counter.start
  exact ⟨new, hnew, Invoice.new_of_prorate hnew⟩

/-- What does not pass the check is refused, and leaves everything as it is. -/
theorem on_prorate_of_not_checks (h : ¬ ∃ source, s.Checks desk id start finish day source) :
    ∃ e, (s.prorate id start finish day).on desk = (.error e, desk) := by
  rcases getInvoice_cases memory id desk with ⟨e, hget⟩ | ⟨source, hget, -⟩
  · simp only [prorate, on_bind, hget]
    exact ⟨e, rfl⟩
  · cases hchecked : ((Invoice.checkProration start finish (s.today day)).on source).1 with
    | ok _ => exact (h ⟨source, hget, hchecked⟩).elim
    | error failure =>
        simp only [prorate, on_bind, hget, Call.on_ofResult, hchecked]
        exact ⟨_, rfl⟩

end InMemory

/-- A proration that fails never writes to the store. If it is refused by what is checked first,
nothing changes at all. If it passes the check, a number is used up, and what fails is to obtain a
free number, or to save the new invoice: its balance cannot be computed, or its identifier is not
new. -/
theorem prorate_eq_error (s : Service MemoryStore) (id : String) (start finish : Given)
    (day : Option Date) (desk after : Desk MemoryStore) (e : StoreFailure)
    (memory : s.repository = MemoryStore.repository)
    (h : (s.prorate id start finish day).on desk = (.error e, after)) :
    after.store = desk.store ∧
      ((¬ ∃ source, s.Checks desk id start finish day source) → after = desk) ∧
      ∀ source, s.Checks desk id start finish day source →
        desk.counter.next < after.counter.next ∧
          s.Unstored s.settings.prorationSeries.letters (s.prorated start finish day source) desk
            after e := by
  by_cases hchecks : ∃ source, s.Checks desk id start finish day source
  · obtain ⟨source, hsource⟩ := hchecks
    rw [hsource.on_prorate] at h
    obtain ⟨hstore, hcounter, hunstored⟩ := storeNew_eq_error memory
      (hsource.exists_new memory) s.settings.prorationSeries.isSeries h
    refine ⟨hstore, fun hnone => (hnone ⟨source, hsource⟩).elim, fun other hother => ?_⟩
    obtain rfl := hsource.unique hother
    exact ⟨hcounter, hunstored⟩
  · obtain ⟨e', hrefused⟩ := on_prorate_of_not_checks memory hchecks
    obtain ⟨-, rfl⟩ := Prod.mk.inj (hrefused.symm.trans h)
    exact ⟨rfl, fun _ => rfl, fun source hsource => (hchecks ⟨source, hsource⟩).elim⟩

end Service

namespace Invoice

/-- A service with a store of its own in memory. -/
def sampleAlone : Service MemoryStore where
  repository := MemoryStore.repository
  settings := sampleRacing.settings
  clock := sampleRacing.clock
  fresh := .following

/-- So much at 5.00 USD that at twice the price it is more than an amount can hold. -/
def sampleBulk : LineItem where
  id := ⟨"bulk", by decide⟩
  description := ⟨"Bulk", by decide, by decide⟩
  quantity := ⟨false, 19, 24⟩
  unitPrice := LineItem.sample.unitPrice
  taxRate := .noTax
  quantity_pos := by decide
  quantity_readable := by decide +kernel
  unitPrice_pos := LineItem.sample.unitPrice_pos

/-- A recurring invoice of it has been created. -/
def sampleBulkDesk : Desk MemoryStore :=
  ((sampleAlone.createInvoice
    { sampleFields with type := .text "RECURRING", frequency := .text "MONTHLY" } [sampleBulk]
    none).on ⟨.empty, .start, 0⟩).2

/-- It is prorated between two days. -/
def sampleProration (start finish : Date) : Call MemoryStore Invoice :=
  sampleAlone.prorate (Fresh.following 0).invoice.text (.day start) (.day finish) none

/-- When the days are the wrong way round, nothing changes. -/
theorem prorate_eq_error_sample :
    ∃ e after, (sampleProration ⟨2026, 3, 2, by decide⟩ sampleDay).on sampleBulkDesk =
      (.error e, after) ∧ after = sampleBulkDesk := by
  have hrejected : ((sampleProration ⟨2026, 3, 2, by decide⟩ sampleDay).on sampleBulkDesk).1 =
      .error (.refused (.broken .periodInOrder)) := by decide +kernel
  have hon : (sampleProration ⟨2026, 3, 2, by decide⟩ sampleDay).on sampleBulkDesk =
      (.error (.refused (.broken .periodInOrder)), _) := Prod.ext hrejected rfl
  obtain ⟨-, hunchanged, -⟩ := Service.prorate_eq_error sampleAlone
    (Fresh.following 0).invoice.text (.day ⟨2026, 3, 2, by decide⟩) (.day sampleDay) none
    sampleBulkDesk _ _ rfl hon
  refine ⟨_, _, hon, hunchanged ?_⟩
  rintro ⟨source, -, hchecked⟩
  -- whatever the source is, the period lies behind its own end
  have hspan : spanOf (.day ⟨2026, 3, 2, by decide⟩) (.day sampleDay) =
      .ok (-60 * microsPerDay) := by decide +kernel
  rw [on_checkProration] at hchecked
  obtain ⟨items, hitems, -⟩ := Except.bind_eq_ok_iff.1 hchecked
  by_cases hrecurring : source.type = .recurring <;>
    simp [proratedItems, hrecurring, hspan] at hitems

/-- When it is prorated for two months, it passes the check but cannot be saved, and the number
1001 of the counter is used up. -/
theorem bulk_proration_uses_up_a_number :
    ((sampleProration sampleDay ⟨2026, 3, 2, by decide⟩).on sampleBulkDesk).1 =
        .error (.refused (.invalid "amount" "1.9000E+26")) ∧
      sampleBulkDesk.counter.next = 1001 ∧
      ((sampleProration sampleDay ⟨2026, 3, 2, by decide⟩).on sampleBulkDesk).2.counter.next =
        1002 := by
  decide +kernel

end Invoice

end Billing
