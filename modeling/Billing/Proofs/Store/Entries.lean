import Billing.Proofs.Store.Clients

set_option autoImplicit false

/-! # What a store holds

A store is listed as what it keeps of each invoice, under the identifiers of the invoices
(`Keeping.Listing`). However a store has come about, no two entries have one identifier or one
number, and versions count from 1 (`Listing.Distinct`). A save either counts one version up, in the
store as in the copy that the caller holds, and leaves all other entries alone, or it changes
nothing; a deleted invoice leaves its number free (`store_invariant`).
-/

namespace Billing

/-! ## Lists of what is stored -/

namespace Keeping

variable {σ : Type} {k : Keeping σ}

/-- What a store keeps of each invoice, listed under the identifiers, and the number in it. -/
structure Listing {σ : Type} (k : Keeping σ) where
  entries : σ → List (String × k.Stored)
  number : k.Stored → String

namespace Listing

/-- No two entries have one identifier or one number, and versions count from 1. -/
structure Distinct (l : k.Listing) (store : σ) : Prop where
  ids : ((l.entries store).map Prod.fst).Nodup
  numbers : ((l.entries store).map fun e => l.number e.2).Nodup
  versions : ∀ e ∈ l.entries store, 1 ≤ k.version e.2

/-- Whether an entry of another invoice has the number of an invoice. -/
def Taken (l : k.Listing) (store : σ) (inv : Invoice) : Prop :=
  ∃ e ∈ l.entries store, e.1 ≠ inv.id.text ∧ l.number e.2 = inv.number.value

/-- What a list of entries has to do with the calls of a repository. -/
structure Lawful (l : k.Listing) : Prop where
  empty : l.entries k.empty = []
  ids : ∀ {store}, k.Sound store → ((l.entries store).map Prod.fst).Nodup
  storedAt : ∀ store id,
    k.storedAt store id = ((l.entries store).find? fun e => e.1 == id).map Prod.snd
  /-- an invoice is saved under a number that no other invoice has -/
  save : ∀ {store inv saved after}, k.Sound store →
    (k.repository.save inv).on store = (.ok saved, after) → ¬ l.Taken store inv ∧
      ∃ st, k.storedAt after inv.id.text = some st ∧ l.number st = inv.number.value ∧
        ∀ e ∈ l.entries after, e = (inv.id.text, st) ∨ e ∈ l.entries store
  /-- a number is only refused because another invoice has it -/
  taken : ∀ {store inv number after}, k.Sound store →
    (k.repository.save inv).on store = (.error (.numberTaken number), after) → l.Taken store inv
  existsNumber : ∀ {store} number, k.Sound store → (k.repository.existsNumber number).on store =
    (.ok ((l.entries store).any fun e => l.number e.2 == number), store)
  delete : ∀ {store id r after}, k.Sound store → (k.repository.delete id).on store = (r, after) →
    l.entries after = (l.entries store).filter fun e => e.1 != id

variable {l : k.Listing} {store after : σ} {inv saved : Invoice} {id : String}

theorem Lawful.storedAt_eq_some_iff (hl : l.Lawful) (h : k.Sound store) {st : k.Stored} :
    k.storedAt store id = some st ↔ (id, st) ∈ l.entries store := by
  rw [hl.storedAt]
  exact find?_pair_eq_some_iff (hl.ids h)

theorem distinct_empty (hl : l.Lawful) : l.Distinct k.empty where
  ids := by simp [hl.empty]
  numbers := by simp [hl.empty]
  versions := by simp [hl.empty]

/-- The identifiers and versions of a sound store need no more than that. -/
theorem Lawful.distinct (hk : k.Lawful) (hl : l.Lawful) (h : k.Sound store)
    (hnumbers : ((l.entries store).map fun e => l.number e.2).Nodup) : l.Distinct store where
  ids := hl.ids h
  numbers := hnumbers
  versions _ he := hk.version_pos h ((hl.storedAt_eq_some_iff h).2 he)

theorem Distinct.save (hk : k.Lawful) (hl : l.Lawful) (h : k.Sound store)
    (hdistinct : l.Distinct store)
    (hsave : (k.repository.save inv).on store = (.ok saved, after)) : l.Distinct after := by
  have hsound := (hk.save h hsave).sound
  obtain ⟨hfree, st, -, hnumber, hentries⟩ := hl.save h hsave
  refine hl.distinct hk hsound ?_
  refine nodup_map_of_replaced (hl.ids hsound) hdistinct.numbers hentries fun e he hid heq => ?_
  exact hfree ⟨e, he, hid, heq.trans hnumber⟩

theorem Distinct.delete (hk : k.Lawful) (hl : l.Lawful) (h : k.Sound store)
    (hdistinct : l.Distinct store) {r : Except StoreFailure Bool}
    (hdelete : (k.repository.delete id).on store = (r, after)) : l.Distinct after := by
  refine hl.distinct hk (hk.delete h hdelete).1 ?_
  rw [hl.delete h hdelete]
  exact hdistinct.numbers.sublist (List.filter_sublist.map _)

/-- Identifiers and numbers are distinct however a store has come about. -/
theorem Lawful.distinct_of_reached (hk : k.Lawful) (hl : l.Lawful) (h : k.Reached store) :
    l.Distinct store := by
  induction h with
  | empty => exact distinct_empty hl
  | @save store inv hreached ih =>
      have hsound := hk.sound hreached
      cases hsave : (k.repository.save inv).on store with
      | mk r after =>
          cases r with
          | ok saved => exact ih.save hk hl hsound hsave
          | error e =>
              obtain rfl := hk.save_error hsave
              exact ih
  | delete id hreached ih => exact ih.delete hk hl (hk.sound hreached) rfl

/-- Nothing that is left after an invoice has been deleted has its number. -/
theorem Distinct.number_free (hl : l.Lawful) (h : k.Sound store) (hdistinct : l.Distinct store)
    {r : Except StoreFailure Bool} (hdelete : (k.repository.delete id).on store = (r, after))
    {st : k.Stored} (hst : k.storedAt store id = some st) :
    ∀ e ∈ l.entries after, l.number e.2 ≠ l.number st := by
  intro e he heq
  rw [hl.delete h hdelete, List.mem_filter, bne_iff_ne] at he
  have hmem := (hl.storedAt_eq_some_iff h).1 hst
  have hsame : e = (id, st) := List.inj_on_of_nodup_map hdistinct.numbers he.1 hmem heq
  exact he.2 (congrArg Prod.fst hsame)

end Listing

end Keeping

/-! ## The store in memory -/

namespace MemoryStore

variable {store after : MemoryStore} {inv saved : Invoice}

/-- The number in a snapshot. -/
def numberOf (data : Json) : String :=
  match data.field? "number" with
  | some (.str s) => s
  | _ => ""

/-- The snapshots of a store in memory. -/
def listing : keeping.Listing := ⟨MemoryStore.entries, numberOf⟩

theorem numberOf_toJson (s : Snapshot) : numberOf s.toJson = s.number := by
  simp [numberOf, Snapshot.toJson, Json.field?, Json.lookup?]

theorem Sound.hasText_eq (h : store.Sound) (number : String) :
    ∀ e ∈ store.entries, hasText "number" number e.2 = (numberOf e.2 == number) := by
  intro e he
  obtain ⟨-, s, hs, -⟩ := h.entries e he
  rw [hs, hasText_number, numberOf_toJson]

/-- A save looks for the number of the invoice among the other entries. -/
theorem Sound.taken_iff (h : store.Sound) (inv : Invoice) :
    (store.entries.any fun e => e.1 != inv.id.text && hasText "number" inv.number.value e.2) =
      true ↔ listing.Taken store inv := by
  rw [List.any_eq_true]
  refine exists_congr fun e => and_congr_right fun he => ?_
  rw [Bool.and_eq_true, bne_iff_ne, h.hasText_eq _ e he, beq_iff_eq]
  rfl

theorem taken_of_save (h : store.Sound) {number : String}
    (hsave : (save inv).on store = (.error (.numberTaken number), after)) :
    listing.Taken store inv := by
  rcases on_save_cases hsave with ⟨-, ⟨_, hr⟩ | ⟨_, hr⟩ | ⟨htaken, -⟩⟩ | ⟨-, -, s, -, hr, -⟩
  · cases hr
  · cases hr
  · exact (h.taken_iff inv).1 htaken
  · cases hr

theorem not_taken_of_save (h : store.Sound) (hsave : (save inv).on store = (.ok saved, after)) :
    ¬ listing.Taken store inv := by
  rcases on_save_cases hsave with ⟨-, ⟨_, hr⟩ | ⟨_, hr⟩ | ⟨-, hr⟩⟩ | ⟨-, hfree, -⟩
  · cases hr
  · cases hr
  · cases hr
  · exact mt (h.taken_iff inv).2 hfree

theorem listing_lawful : listing.Lawful where
  empty := rfl
  ids h := Sound.nodup h
  storedAt _ _ := rfl
  save := by
    intro store inv saved after h hsave
    refine ⟨not_taken_of_save h hsave, ?_⟩
    obtain ⟨-, s, hs, -, rfl⟩ := on_save_eq_ok hsave
    refine ⟨s.toJson, dataAt?_put_self _ _ _, ?_, fun e he => Keyed.mem_put he⟩
    show numberOf s.toJson = inv.number.value
    rw [numberOf_toJson, (Snapshot.id_number_version_of hs).2.1]
  taken h hsave := taken_of_save h hsave
  existsNumber := by
    intro store number h
    have hany : (store.entries.any fun e => hasText "number" number e.2) =
        store.entries.any fun e => numberOf e.2 == number := by
      rw [Bool.eq_iff_iff, List.any_eq_true, List.any_eq_true]
      exact exists_congr fun e => and_congr_right fun he => by rw [Sound.hasText_eq h number e he]
    exact congrArg (fun found => (Except.ok found, store)) hany
  delete := by
    intro store id r after h hdelete
    have hon := on_delete (Sound.nodup h) id
    obtain ⟨-, rfl⟩ := Prod.mk.inj (hdelete.symm.trans hon)
    rfl

end MemoryStore

/-! ## Tables -/

namespace Tables

variable {tables after : Tables} {inv saved : Invoice} {id : String}

/-- What tables hold of each invoice. -/
def listing : keeping.Listing where
  entries tables := tables.invoices.map fun row =>
    (row.id, ⟨row, tables.items.filter fun r => r.invoiceId == row.id⟩)
  number r := r.row.number

theorem map_fst_entries (tables : Tables) :
    (listing.entries tables).map Prod.fst = tables.invoices.map InvoiceRow.id := by
  rw [listing, List.map_map]
  rfl

theorem Sound.nodup_entries (h : tables.Sound) :
    ((listing.entries tables).map Prod.fst).Nodup := by
  rw [map_fst_entries]
  exact h.nodup

theorem recordAt?_eq (tables : Tables) (id : String) :
    tables.recordAt? id =
      ((listing.entries tables).find? fun e => e.1 == id).map Prod.snd := by
  rw [recordAt?, listing, List.find?_map, Option.map_map]
  refine Option.map_congr fun row hrow => ?_
  rw [← (mem_of_find?_key hrow).2]
  rfl

theorem taken_iff : listing.Taken tables inv ↔
    ∃ row ∈ tables.invoices, row.id ≠ inv.id.text ∧ row.number = inv.number.value := by
  simp [Keeping.Listing.Taken, listing]

/-- A write that has been let through has found the number free, and all items told apart. -/
theorem checked_of_free {isOther : InvoiceRow → Bool} {items : List ItemRow}
    (hother : ∀ row, row.id ≠ inv.id.text → row.number = inv.number.value → isOther row = true)
    (h : ¬ (tables.invoices.any isOther || !keysDistinct items) = true) :
    ¬ listing.Taken tables inv ∧ keysDistinct items = true := by
  obtain ⟨hrows, hkeys⟩ := Bool.or_eq_false_iff.1 (eq_false_of_ne_true h)
  refine ⟨?_, by simpa using hkeys⟩
  rw [taken_iff]
  rintro ⟨row, hrow, hid, hnumber⟩
  exact List.any_eq_false.1 hrows row hrow (hother row hid hnumber)

theorem insert?_eq_some (h : tables.insert? inv = some after) :
    ¬ listing.Taken tables inv ∧ keysDistinct after.items = true := by
  unfold insert? at h
  extract_lets items at h
  split at h
  next => cases h
  next hfree =>
    obtain rfl := Option.some.inj h
    exact checked_of_free (fun row _ hnumber => by simp [hnumber]) hfree

theorem replace?_eq_some (h : tables.replace? inv = some after) :
    ¬ listing.Taken tables inv ∧ keysDistinct after.items = true := by
  unfold replace? at h
  extract_lets items at h
  split at h
  next => cases h
  next hfree =>
    obtain rfl := Option.some.inj h
    exact checked_of_free (fun row hid hnumber => by simp [hid, hnumber]) hfree

/-- What every save has checked before it writes. -/
theorem checked_of_save (h : (save inv).on tables = (.ok saved, after)) :
    ¬ listing.Taken tables inv ∧ keysDistinct after.items = true := by
  rcases on_save_cases h with ⟨-, h⟩ | ⟨-, h⟩ | ⟨-, h | h⟩
  · exact insert?_eq_some (committed_eq_ok h).1
  · exact replace?_eq_some (committed_eq_ok h).1
  · cases h
  · cases h

/-- A number is only found to be taken where another invoice has it. -/
theorem taken_of_violation {number : String} (h : tables.violation inv = .numberTaken number) :
    listing.Taken tables inv := by
  rw [taken_iff]
  unfold violation at h
  split at h
  next => cases h
  next owner howner _ =>
    split at h
    next => cases h
    next hid =>
      obtain ⟨row, hrow, rfl⟩ := Option.map_eq_some_iff.1 howner
      obtain ⟨hmem, hnumber⟩ := mem_of_find?_key hrow
      exact ⟨row, hmem, by simpa using hid, hnumber⟩
  next => cases h

theorem taken_of_committed {number : String} {changed : Option Tables}
    (h : committed inv tables changed = (.error (.numberTaken number), after)) :
    listing.Taken tables inv := by
  cases changed with
  | none => exact taken_of_violation (Except.error.inj (Prod.mk.inj h).1)
  | some tables' => cases (Prod.mk.inj h).1

theorem taken_of_save {number : String}
    (h : (save inv).on tables = (.error (.numberTaken number), after)) :
    listing.Taken tables inv := by
  rcases on_save_cases h with ⟨-, h⟩ | ⟨-, h⟩ | ⟨-, h | h⟩
  · exact taken_of_committed h
  · exact taken_of_committed h
  · cases h
  · cases h

/-- What is listed after an invoice has been written is what was listed before, or it. -/
theorem mem_entries_of_written {version : Int} (h : tables.Sound) (hafter : after.Sound)
    (hwritten : Written inv version tables after) {e : String × Record}
    (he : e ∈ listing.entries after) :
    e = (inv.id.text, ⟨rowOf inv version, itemRows inv⟩) ∨ e ∈ listing.entries tables := by
  have hfound : after.recordAt? e.1 = some e.2 := by
    rw [recordAt?_eq]
    exact (find?_pair_eq_some_iff hafter.nodup_entries).2 he
  by_cases hid : e.1 = inv.id.text
  · rw [hid, hwritten.recordAt?_self] at hfound
    exact .inl (Prod.ext hid (Option.some.inj hfound).symm)
  · rw [hwritten.recordAt?_of_ne hid, recordAt?_eq] at hfound
    exact .inr ((find?_pair_eq_some_iff h.nodup_entries).1 hfound)

theorem entries_delete {r : Except StoreFailure Bool} (h : (delete id).on tables = (r, after)) :
    listing.entries after = (listing.entries tables).filter fun e => e.1 != id := by
  obtain ⟨-, rfl⟩ := Prod.mk.inj h
  simp only [listing, List.filter_map]
  refine List.map_congr_left fun row hrow => ?_
  -- the rows of items of the invoices that are left are the ones that were there
  have hid : row.id ≠ id := by simpa using List.of_mem_filter hrow
  rw [filter_filter_items hid]

theorem listing_lawful : listing.Lawful where
  empty := rfl
  ids h := Sound.nodup_entries h
  storedAt := recordAt?_eq
  save := by
    intro tables inv saved after h hsave
    obtain ⟨-, hwritten, -⟩ := Sound.on_save_eq_ok h hsave
    have hafter : after.Sound := (lawful.save h hsave).sound
    exact ⟨(checked_of_save hsave).1, _, hwritten.recordAt?_self, rfl,
      fun e he => mem_entries_of_written h hafter hwritten he⟩
  taken _ hsave := taken_of_save hsave
  existsNumber := by
    intro tables number _
    have hany : (tables.invoices.any fun row => row.number == number) =
        (listing.entries tables).any fun e => e.2.row.number == number := by
      rw [listing, List.any_map]
      rfl
    exact congrArg (fun found => (Except.ok found, tables)) hany
  delete _ hdelete := entries_delete hdelete

end Tables

/-! ## Both stores -/

namespace Backend

/-- What either store holds. -/
def listing : (b : Backend) → b.keeping.Listing
  | memory => MemoryStore.listing
  | tables => Tables.listing

theorem listing_lawful (b : Backend) : b.listing.Lawful := by
  cases b with
  | memory => exact MemoryStore.listing_lawful
  | tables => exact Tables.listing_lawful

/-- How either store saves the copy of an invoice that a caller holds. -/
def saving : (b : Backend) → Saving b.Store Unit
  | memory => MemoryStore.saving
  | tables => Tables.saving

theorem on_saving_of_ok (b : Backend) {store after : b.Store} {inv saved : Invoice}
    (h : (b.keeping.repository.save inv).on store = (.ok saved, after)) :
    b.saving.on ⟨store, inv⟩ = (.ok (), ⟨after, saved⟩) := by
  cases b with
  | memory => exact Saving.on_through_of_ok h
  | tables => exact Saving.on_through_of_ok h

theorem on_saving_of_error (b : Backend) {store after : b.Store} {inv : Invoice} {e : StoreFailure}
    (h : (b.keeping.repository.save inv).on store = (.error e, after)) :
    b.saving.on ⟨store, inv⟩ = (.error e, ⟨after, inv⟩) := by
  cases b with
  | memory => exact Saving.on_through_of_error h
  | tables => exact Saving.on_through_of_error h

end Backend

namespace Keeping

variable {σ : Type} {k : Keeping σ} {store after : σ} {inv saved : Invoice}

/-- A save counts up the version of what is stored, from 0 for what was not stored. -/
theorem Saved.version_succ (h : k.Saved inv store saved after) :
    k.versionOf (k.storedAt after inv.id.text) =
      k.versionOf (k.storedAt store inv.id.text) + 1 := by
  obtain ⟨st, hst, hversion, -⟩ := h.stored
  rw [hst]
  show k.version st = _
  rcases h.current with ⟨hnone, hzero⟩ | ⟨old, hold, hsame⟩
  · rw [hnone, hversion, hzero]
    rfl
  · rw [hold, hversion, ← hsame]
    rfl

/-- The caller's copy has the version that is stored. -/
theorem Saved.version_eq (h : k.Saved inv store saved after) :
    saved.version = k.versionOf (k.storedAt after inv.id.text) := by
  obtain ⟨st, hst, hversion, -⟩ := h.stored
  rw [hst, h.counted]
  exact hversion.symm

namespace Listing

variable {l : k.Listing} {number : String}

/-- A number that no entry has is not found, and an invoice can be saved under it. -/
theorem Lawful.free (hl : l.Lawful) (h : k.Sound store)
    (hfree : ∀ e ∈ l.entries store, l.number e.2 ≠ number) :
    (k.repository.existsNumber number).on store = (.ok false, store) ∧
      ∀ inv : Invoice, inv.number.value = number → ∀ after,
        (k.repository.save inv).on store ≠ (.error (.numberTaken number), after) := by
  constructor
  · rw [hl.existsNumber number h, List.any_eq_false.2 fun e he => by simpa using hfree e he]
  · intro inv hnumber after hsave
    obtain ⟨e, he, -, htaken⟩ := hl.taken h hsave
    exact hfree e he (htaken.trans hnumber)

end Listing

end Keeping

/-- However a store has come about, no two invoices in it have one identifier or one number, and
all versions are at least 1. A save that succeeds counts the version of its invoice up by one, which
is then the version of the caller's copy, and leaves all other invoices alone; a save that fails
changes neither the store nor the copy. Deleting an invoice removes just that one, and its number
can be used again. -/
theorem store_invariant (b : Backend) (store : b.Store) (reached : b.keeping.Reached store) :
    b.listing.Distinct store ∧
    (∀ inv saved after, (b.keeping.repository.save inv).on store = (.ok saved, after) →
      b.keeping.versionOf (b.keeping.storedAt after inv.id.text) =
          b.keeping.versionOf (b.keeping.storedAt store inv.id.text) + 1 ∧
        b.saving.on ⟨store, inv⟩ = (.ok (), ⟨after, saved⟩) ∧
        saved = { inv with
          version := b.keeping.versionOf (b.keeping.storedAt after inv.id.text) } ∧
        ∀ id, id ≠ inv.id.text → b.keeping.storedAt after id = b.keeping.storedAt store id) ∧
    (∀ inv e after, (b.keeping.repository.save inv).on store = (.error e, after) →
      after = store ∧ b.saving.on ⟨store, inv⟩ = (.error e, ⟨store, inv⟩)) ∧
    ∀ id r after, (b.keeping.repository.delete id).on store = (r, after) →
      b.listing.entries after = (b.listing.entries store).filter (fun e => e.1 != id) ∧
        ∀ st, b.keeping.storedAt store id = some st →
          (b.keeping.repository.existsNumber (b.listing.number st)).on after =
              (.ok false, after) ∧
            ∀ inv : Invoice, inv.number.value = b.listing.number st → ∀ later,
              (b.keeping.repository.save inv).on after ≠
                (.error (.numberTaken (b.listing.number st)), later) := by
  have hk := b.lawful
  have hl := b.listing_lawful
  have hsound := hk.sound reached
  have hdistinct := hl.distinct_of_reached hk reached
  refine ⟨hdistinct, ?_, ?_, ?_⟩
  · intro inv saved after hsave
    have hsaved := hk.save hsound hsave
    refine ⟨hsaved.version_succ, b.on_saving_of_ok hsave, ?_, hsaved.others⟩
    rw [← hsaved.version_eq, hsaved.counted]
  · intro inv e after hsave
    obtain rfl := hk.save_error hsave
    exact ⟨rfl, b.on_saving_of_error hsave⟩
  · intro id r after hdelete
    refine ⟨hl.delete hsound hdelete, fun st hst => ?_⟩
    exact hl.free (hk.delete hsound hdelete).1 (hdistinct.number_free hl hsound hdelete hst)

namespace Invoice

/-- The number of the sample invoice is free once the invoice has been deleted. -/
theorem store_invariant_sample :
    Backend.memory.keeping.Reached sampleStore ∧
      (MemoryStore.listing.entries sampleStore).map Prod.fst = [sample.id.text] ∧
      Backend.memory.listing.Distinct sampleStore ∧
      ((MemoryStore.existsNumber sample.number.value).on
        ((MemoryStore.delete sample.id.text).on sampleStore).2).1 = .ok false := by
  have hreached : Backend.memory.keeping.Reached sampleStore := .save _ .empty
  obtain ⟨hdistinct, -, -, hdelete⟩ := store_invariant .memory sampleStore hreached
  have hstored : (sampleStore.dataAt? sample.id.text).map MemoryStore.numberOf =
      some sample.number.value := by decide +kernel
  obtain ⟨st, hst, hnumber⟩ := Option.map_eq_some_iff.1 hstored
  have hfree := ((hdelete sample.id.text _ _ rfl).2 st hst).1
  refine ⟨hreached, by decide +kernel, hdistinct, ?_⟩
  rw [← hnumber]
  exact congrArg Prod.fst hfree

end Invoice

end Billing
