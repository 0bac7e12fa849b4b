import Billing.Proofs.Invoice.Consistency
import Billing.Proofs.Invoice.Version
import Billing.Proofs.Store.Entries
import Billing.Proofs.Store.MemoryShelf
import Billing.Proofs.Store.TablesShelf

set_option autoImplicit false

/-! # Saving what has been loaded

An invoice that has been loaded from a store in use, and changed by a command since, is saved again
if nobody else has saved it, and is from then on what the store gives back (`Backend.Ready.save`).
-/

namespace Billing

namespace Keeping

variable {σ : Type} {k : Keeping σ} {l : k.Listing} {store after : σ} {inv saved : Invoice}
  {id : String} {st : k.Stored}

/-! ## Stores in use -/

/-- The stores in which only invoices that were made properly have ever been saved. -/
inductive Used (k : Keeping σ) : σ → Prop where
  | empty : Used k k.empty
  | save {store : σ} (inv : Invoice) :
      inv.Proper → Used k store → Used k ((k.repository.save inv).on store).2
  | delete {store : σ} (id : String) :
      Used k store → Used k ((k.repository.delete id).on store).2

theorem Used.reached (h : k.Used store) : k.Reached store := by
  induction h with
  | empty => exact .empty
  | save inv _ _ ih => exact .save inv ih
  | delete id _ ih => exact .delete id ih

/-! ## Loading -/

theorem Lawful.reads_of_read (hk : k.Lawful) (h : k.Sound store)
    (hst : k.storedAt store id = some st) (hread : k.read st = .ok inv) :
    (k.repository.findById id).Reads store (.ok (some inv)) := by
  have hreads := hk.findById id h
  rw [hst] at hreads
  show (k.repository.findById id).Reads store
    ((Except.ok inv : Except StoreFailure Invoice).map some)
  rw [← hread]
  exact hreads

/-- What has been loaded is what is stored. -/
theorem Lawful.stored_of_loaded (hk : k.Lawful) (h : k.Sound store)
    (hloaded : (k.repository.findById id).Reads store (.ok (some inv))) :
    ∃ st, k.storedAt store id = some st ∧ k.read st = .ok inv := by
  exact lookup_eq_some_iff.1 (Prod.mk.inj ((hk.findById id h).symm.trans hloaded)).1

namespace Listing

/-! ## Entries of stores in use -/

/-- What an entry of a store in use is: an invoice that was saved under its identifier, with items
of which `P` holds. -/
structure Entry (l : k.Listing) (P : List LineItem → Prop) (id : String) (st : k.Stored)
    (saved : Invoice) : Prop where
  proper : saved.Proper
  items : P saved.items
  id_eq : saved.id.text = id
  number : l.number st = saved.number.value
  read : k.read st = .ok ((saved.atVersion (k.version st)).reread k.times)

/-- What is stored by a successful save. -/
theorem Lawful.stored_of_save (hk : k.Lawful) (hl : l.Lawful) (h : k.Sound store)
    (hcurrency : inv.OneCurrency)
    (hsave : (k.repository.save inv).on store = (.ok saved, after)) :
    ∃ st, k.storedAt after inv.id.text = some st ∧ l.number st = inv.number.value ∧
      k.version st = inv.version + 1 ∧
      k.read st = .ok ((inv.atVersion (k.version st)).reread k.times) := by
  have hsaved := hk.save h hsave
  obtain ⟨st, hst, hversion, hread⟩ := hsaved.stored
  obtain ⟨-, st', hst', hnumber, -⟩ := hl.save h hsave
  obtain rfl : st' = st := Option.some.inj (hst'.symm.trans hst)
  refine ⟨st', hst, hnumber, hversion, ?_⟩
  rw [hread hcurrency, hsaved.counted, hversion]
  rfl

/-- What is known of everything that a save writes is known of everything in a store in use. -/
theorem Lawful.of_used {P : String → k.Stored → Prop} (hk : k.Lawful) (hl : l.Lawful)
    (hP : ∀ {store inv saved after st}, k.Sound store → inv.Proper →
      (k.repository.save inv).on store = (.ok saved, after) →
      k.storedAt after inv.id.text = some st → P inv.id.text st)
    (h : k.Used store) (hst : k.storedAt store id = some st) : P id st := by
  induction h generalizing id st with
  | empty =>
      rw [hl.storedAt, hl.empty] at hst
      cases hst
  | @save store inv hproper hused ih =>
      have hsound := hk.sound hused.reached
      cases hsave : (k.repository.save inv).on store with
      | mk r after =>
          rw [hsave] at hst
          cases r with
          | error e =>
              obtain rfl := hk.save_error hsave
              exact ih hst
          | ok saved =>
              by_cases hid : id = inv.id.text
              · subst hid
                exact hP hsound hproper hsave hst
              · rw [(hk.save hsound hsave).others id hid] at hst
                exact ih hst
  | @delete store gone hused ih =>
      cases hdelete : (k.repository.delete gone).on store with
      | mk r after =>
          rw [hdelete] at hst
          obtain ⟨-, -, hnone, hothers⟩ := hk.delete (hk.sound hused.reached) hdelete
          by_cases hid : id = gone
          · rw [hid, hnone] at hst
            cases hst
          · rw [hothers id hid] at hst
            exact ih hst

/-- Every entry of a store in use was put there by a save. -/
theorem Lawful.entry_of_used {P : List LineItem → Prop} (hk : k.Lawful) (hl : l.Lawful)
    (hP : ∀ {store inv saved after}, k.Sound store →
      (k.repository.save inv).on store = (.ok saved, after) → P inv.items)
    (h : k.Used store) (hst : k.storedAt store id = some st) : ∃ saved, l.Entry P id st saved := by
  refine hl.of_used (P := fun id st => ∃ saved, l.Entry P id st saved) hk ?_ h hst
  intro store inv saved after st hsound hproper hsave hst
  obtain ⟨st', hst', hnumber, -, hread⟩ := hl.stored_of_save hk hsound hproper.oneCurrency hsave
  obtain rfl : st' = st := Option.some.inj (hst'.symm.trans hst)
  exact ⟨inv, hproper, hP hsound hsave, rfl, hnumber, hread⟩

/-! ## Invoices that a store gives back -/

/-- What is stored of an invoice has its number and its version. -/
def Current (l : k.Listing) (store : σ) (inv : Invoice) : Prop :=
  ∃ st, k.storedAt store inv.id.text = some st ∧ l.number st = inv.number.value ∧
    k.version st = inv.version

/-- A store gives back an invoice as it is, time and again. -/
structure Holds (l : k.Listing) (store : σ) (inv : Invoice) : Prop where
  current : l.Current store inv
  loaded : (k.repository.findById inv.id.text).Reads store (.ok (some inv))
  settled : inv.Settled k.times
  proper : inv.Proper

theorem Lawful.holds_of_loaded {P : List LineItem → Prop} (hk : k.Lawful) (hl : l.Lawful)
    (hP : ∀ {store inv saved after}, k.Sound store →
      (k.repository.save inv).on store = (.ok saved, after) → P inv.items)
    (h : k.Used store) (hloaded : (k.repository.findById id).Reads store (.ok (some inv))) :
    inv.id.text = id ∧ P inv.items ∧ l.Holds store inv := by
  have hsound := hk.sound h.reached
  obtain ⟨st, hst, hread⟩ := hk.stored_of_loaded hsound hloaded
  obtain ⟨hid, hversion, hproper⟩ := hk.read hsound hst hread
  obtain ⟨saved, hentry⟩ := hl.entry_of_used hk hP h hst
  -- what has been loaded is what was saved, as it comes back
  obtain rfl := Except.ok.inj (hread.symm.trans hentry.read)
  have hsaved := hentry.proper.atVersion (k.version st)
  refine ⟨hid, hentry.items, ⟨st, hid ▸ hst, hentry.number, hversion.symm⟩, hid ▸ hloaded,
    hsaved.settled_reread hk.times_times, hproper⟩

/-- A store gives back what has been saved, at its new version. -/
theorem Lawful.holds_of_save (hk : k.Lawful) (hl : l.Lawful) (h : k.Sound store)
    (hproper : inv.Proper) (hsettled : inv.Settled k.times)
    (hsave : (k.repository.save inv).on store = (.ok saved, after)) :
    l.Holds after (inv.atVersion (inv.version + 1)) := by
  obtain ⟨st, hst, hnumber, hversion, hread⟩ :=
    hl.stored_of_save hk h hproper.oneCurrency hsave
  have hsame : (inv.atVersion (inv.version + 1)).Settled k.times := by
    show { inv.reread k.times with version := inv.version + 1 } = inv.atVersion (inv.version + 1)
    rw [hsettled]
    rfl
  rw [hversion, hsame] at hread
  exact ⟨⟨st, hst, hnumber, hversion⟩,
    hk.reads_of_read (hk.save h hsave).sound hst hread, hsame,
    hproper.atVersion _⟩

/-- Only an invoice itself has its number. -/
theorem Distinct.not_taken (hl : l.Lawful) (h : k.Sound store) (hdistinct : l.Distinct store)
    (hcurrent : l.Current store inv) : ¬ l.Taken store inv := by
  rintro ⟨e, he, hid, hnumber⟩
  obtain ⟨st, hst, hst_number, -⟩ := hcurrent
  have hmem := (hl.storedAt_eq_some_iff h).1 hst
  have hsame : e = (inv.id.text, st) :=
    List.inj_on_of_nodup_map hdistinct.numbers he hmem (hnumber.trans hst_number.symm)
  exact hid (congrArg Prod.fst hsame)

end Listing

end Keeping

/-! ## The store in memory -/

namespace MemoryStore

variable {store : MemoryStore} {inv : Invoice}

/-- An invoice that is stored at its version, under its own number, can be saved if its balance can
be computed. -/
theorem on_save_of_current (h : store.Sound) (hcurrent : listing.Current store inv)
    (hfree : ¬ listing.Taken store inv) (hbalance : ∃ m, inv.balanceDue = .ok m) :
    ∃ after, (save inv).on store = (.ok (inv.atVersion (inv.version + 1)), after) := by
  obtain ⟨data, hdata, -, hversion⟩ := hcurrent
  have hfresh : isStale inv (store.dataAt? inv.id.text) = false :=
    isStale_eq_false_iff.2 (.inr ⟨data, hdata, hversion⟩)
  obtain ⟨m, hm⟩ := hbalance
  obtain ⟨s, hs⟩ := Snapshot.exists_of_balance hm
  rw [on_save, hfresh, if_neg Bool.false_ne_true, if_neg (mt (h.taken_iff inv).1 hfree), hs]
  exact ⟨_, rfl⟩

end MemoryStore

/-! ## Tables -/

namespace Tables

variable {tables after : Tables} {inv saved : Invoice}

/-- No two items of one invoice have one key, however tables have come about. -/
theorem keysDistinct_of_reached (h : keeping.Reached tables) :
    keysDistinct tables.items = true := by
  induction h with
  | empty => rfl
  | @save tables inv _ ih =>
      cases hsave : (keeping.repository.save inv).on tables with
      | mk r after =>
          cases r with
          | ok saved => exact (checked_of_save hsave).2
          | error e =>
              obtain rfl := lawful.save_error hsave
              exact ih
  | delete id _ ih => exact keysDistinct_iff.2 ((keysDistinct_iff.1 ih).sublist List.filter_sublist)

/-- Items of which no two have one identifier. -/
def ItemsApart (items : List LineItem) : Prop := (items.map LineItem.id).Nodup

theorem nodup_texts_iff {items : List LineItem} :
    (items.map fun i => i.id.text).Nodup ↔ ItemsApart items := by
  have hmap : (items.map fun i => i.id.text) = (items.map LineItem.id).map Identifier.text := by
    rw [List.map_map]
    rfl
  rw [hmap, List.nodup_map_iff Identifier.text_injective]
  rfl

theorem itemsApart_of_save (hsound : tables.Sound)
    (h : (save inv).on tables = (.ok saved, after)) : ItemsApart inv.items := by
  obtain ⟨-, hwritten, -⟩ := hsound.on_save_eq_ok h
  have hkeys := (keysDistinct_iff.1 (checked_of_save h).2).sublist
    (List.filter_sublist (p := fun r => r.invoiceId == inv.id.text))
  rw [hwritten.filter_items_self] at hkeys
  rw [← nodup_texts_iff, ← map_id_itemRows, List.Nodup, List.pairwise_map]
  -- all of these rows belong to the one invoice
  refine hkeys.imp_of_mem fun {a b} ha hb hne heq => hne ⟨?_, heq.symm⟩
  rw [(mem_itemRows ha).1, (mem_itemRows hb).1]

/-- An invoice that is stored at its version, under its own number, can be saved if its items are
told apart and its next version fits. -/
theorem on_save_of_current (h : keeping.Reached tables) (hcurrent : listing.Current tables inv)
    (hfree : ¬ listing.Taken tables inv) (hitems : ItemsApart inv.items)
    (hlimit : inv.version + 1 < 2 ^ 63) :
    ∃ after, (save inv).on tables = (.ok (inv.atVersion (inv.version + 1)), after) := by
  have hsound := lawful.sound h
  obtain ⟨r, hr, -, hversion⟩ := hcurrent
  have hr : tables.recordAt? inv.id.text = some r := hr
  have hversion : r.row.version = inv.version := hversion
  have hpos : 1 ≤ inv.version := hversion ▸ lawful.version_pos hsound hr
  have hfits : (fitsColumn inv.version && fitsColumn (inv.version + 1)) = true := by
    have htwo : (twoTo 63 : Int) = 2 ^ 63 := by decide
    simp only [fitsColumn, htwo, Bool.and_eq_true, decide_eq_true_eq]
    omega
  have hstored : tables.version? inv.id.text = some inv.version := by
    rw [version?_eq, hr, ← hversion]
    rfl
  have hany : (tables.invoices.any fun row =>
      row.id != inv.id.text && row.number == inv.number.value) = false := by
    rw [taken_iff] at hfree
    rw [List.any_eq_false]
    intro row hrow htest
    exact hfree ⟨row, hrow, by simpa using htest⟩
  have hkeys := keysDistinct_replace (keysDistinct_of_reached h) (nodup_texts_iff.2 hitems)
  rw [on_save, if_neg (by omega), if_neg (by simp [hfits]), if_neg (not_not.2 hstored), replace?,
    hany, hkeys]
  exact ⟨_, rfl⟩

end Tables

/-! ## Both stores -/

namespace Backend

variable {b : Backend} {store : b.Store} {inv changed : Invoice} {clock : Moment}
  {command : Command} {result : Option LineItem} {id : String}

/-- What each store asks of items. -/
def Admits : Backend → List LineItem → Prop
  | memory, _ => True
  | tables, items => Tables.ItemsApart items

theorem admits_of_save {saved : Invoice} {after : b.Store} (h : b.keeping.Sound store)
    (hsave : (b.keeping.repository.save inv).on store = (.ok saved, after)) :
    b.Admits inv.items := by
  cases b with
  | memory => trivial
  | tables => exact Tables.itemsApart_of_save h hsave

theorem admits_of_change (h : b.Admits inv.items)
    (hchange : Invoice.Change clock inv command result changed) : b.Admits changed.items := by
  cases b with
  | memory => trivial
  | tables => exact Invoice.ids_of_change h hchange

theorem times_of_universal (b : Backend) {m : Moment} (h : m.offset = some 0) :
    b.keeping.times m = m := by
  cases b with
  | memory => exact Moment.stamped_of_universal h
  | tables => exact Moment.atUniversal_of_universal h

theorem on_save_of_current (hreached : b.keeping.Reached store)
    (hcurrent : b.listing.Current store inv) (hitems : b.Admits inv.items)
    (hbalance : ∃ m, inv.balanceDue = .ok m) (hlimit : b = tables → inv.version + 1 < 2 ^ 63) :
    ∃ after, (b.keeping.repository.save inv).on store =
      (.ok (inv.atVersion (inv.version + 1)), after) := by
  have hsound := b.lawful.sound hreached
  have hdistinct := b.listing_lawful.distinct_of_reached b.lawful hreached
  have hfree := hdistinct.not_taken b.listing_lawful hsound hcurrent
  cases b with
  | memory => exact MemoryStore.on_save_of_current hsound hcurrent hfree hbalance
  | tables => exact Tables.on_save_of_current hreached hcurrent hfree hitems (hlimit rfl)

/-- A store in use that gives back an invoice, to be changed and saved again. -/
structure Ready (b : Backend) (store : b.Store) (inv : Invoice) : Prop where
  used : b.keeping.Used store
  holds : b.listing.Holds store inv
  items : b.Admits inv.items

theorem ready_of_loaded (h : b.keeping.Used store)
    (hloaded : (b.keeping.repository.findById id).Reads store (.ok (some inv))) :
    inv.id.text = id ∧ b.Ready store inv := by
  obtain ⟨hid, hitems, hholds⟩ :=
    b.listing_lawful.holds_of_loaded b.lawful admits_of_save h hloaded
  exact ⟨hid, h, hholds, hitems⟩

/-- An invoice that has been loaded and changed is saved, and nothing else changes. -/
theorem Ready.save (h : b.Ready store inv)
    (hchange : Invoice.Change clock inv command result changed)
    (hmoment : ∀ m ∈ command.moment? clock, m.offset = some 0)
    (hbalance : ∃ m, changed.balanceDue = .ok m)
    (hlimit : b = tables → inv.version + 1 < 2 ^ 63) :
    ∃ after, (b.keeping.repository.save changed).on store =
        (.ok (changed.atVersion (inv.version + 1)), after) ∧
      b.Ready after (changed.atVersion (inv.version + 1)) ∧
      ∀ other, other ≠ inv.id.text →
        b.keeping.storedAt after other = b.keeping.storedAt store other := by
  have hsound := b.lawful.sound h.used.reached
  obtain ⟨hid, hversion, -⟩ := Invoice.constant_of_change hchange
  have hnumber := Invoice.number_of_change hchange
  have hcurrent : b.listing.Current store changed := by
    obtain ⟨st, hst, hst_number, hst_version⟩ := h.holds.current
    exact ⟨st, hid ▸ hst, hnumber ▸ hst_number, hversion ▸ hst_version⟩
  have hitems := admits_of_change h.items hchange
  obtain ⟨after, hsave⟩ :=
    on_save_of_current h.used.reached hcurrent hitems hbalance (hversion ▸ hlimit)
  have hproper := h.holds.proper.change hchange
  have hsettled := h.holds.settled.change
    (fun m hm => b.times_of_universal (hmoment m hm)) hchange
  have hused : b.keeping.Used after := by
    have := Keeping.Used.save changed hproper h.used
    rwa [hsave] at this
  refine ⟨after, hversion ▸ hsave, ?_, ?_⟩
  · rw [← hversion]
    exact ⟨hused, b.listing_lawful.holds_of_save b.lawful hsound hproper hsettled hsave, hitems⟩
  · rw [← hid]
    exact (b.lawful.save hsound hsave).others

end Backend

end Billing
