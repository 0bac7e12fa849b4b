import Billing.Proofs.Store.Loaded

set_option autoImplicit false

/-! # Lookups by properties

A store can be searched for the invoices of a client, in a state, of an issuer, with a number, or
that are overdue. Each backend has its own way of doing so, on what it keeps of the invoices. What
is found is in any case what one would find by looking up every stored invoice by its identifier and
checking the invoice itself (`Backend.searches_by_looking_up`), in every store in use.
-/

namespace Billing

/-! ## What a search finds -/

namespace Repository

variable {σ : Type}

/-- An invoice is stored: it is what is found under its identifier. -/
def Gives (r : Repository σ) (store : σ) (inv : Invoice) : Prop :=
  ((r.findById inv.id.text).on store).1 = .ok (some inv)

/-- A list of the stored invoices that have a property. None of them is missing, and none is there
twice. -/
def Selects (r : Repository σ) (store : σ) (p : Invoice → Prop) (found : List Invoice) : Prop :=
  (found.map fun i => i.id.text).Nodup ∧ ∀ inv, inv ∈ found ↔ r.Gives store inv ∧ p inv

/-- Every search finds what one finds by looking up all invoices. -/
structure SearchesByLookingUp (r : Repository σ) (store : σ) : Prop where
  client : ∀ client, ∃ found, ((r.findByClient client).on store).1 = .ok found ∧
    r.Selects store (fun inv => inv.clientId.text = client) found
  status : ∀ status, ∃ found, ((r.findByStatus status).on store).1 = .ok found ∧
    r.Selects store (fun inv => inv.status = status) found
  drafts : ∀ user, ∃ found, ((r.findDraftsBy user).on store).1 = .ok found ∧
    r.Selects store (fun inv => inv.issuedBy.text = user ∧ inv.status = .draft) found
  /-- the ones that fall due first come first -/
  overdue : ∀ today, ∃ found, ((r.findOverdue today).on store).1 = .ok found ∧
    r.Selects store (fun inv => inv.isOverdue today = true) found ∧
      found.Pairwise fun a b => a.dueDate.le b.dueDate = true
  /-- at most one invoice has a number -/
  number : ∀ number, ∃ found, ((r.findByNumber number).on store).1 = .ok found ∧
    ((r.existsNumber number).on store).1 = .ok found.isSome ∧
      r.Selects store (fun inv => inv.number.value = number) found.toList

theorem Selects.perm {r : Repository σ} {store : σ} {p : Invoice → Prop}
    {found sorted : List Invoice} (h : r.Selects store p found) (hperm : sorted.Perm found) :
    r.Selects store p sorted :=
  ⟨(hperm.map _).nodup_iff.2 h.1, fun inv => hperm.mem_iff.trans (h.2 inv)⟩

end Repository

/-! ## Searching a shelf -/

namespace Shelf

variable {shelf : Shelf}

theorem Orderly.stored?_eq_some_iff (h : shelf.Orderly) {inv : Invoice} :
    shelf.stored? inv.id.text = some inv ↔ inv ∈ shelf.invoices := by
  rw [stored?, find?_key_eq_some_iff h.ids, and_iff_left rfl]

/-- No two invoices have one number, so the first one is the only one. -/
theorem Orderly.filter_number (h : shelf.Orderly) (number : String) :
    (shelf.invoices.filter fun i => i.number.value == number) =
      (shelf.invoices.find? fun i => i.number.value == number).toList :=
  filter_key h.numbers number

end Shelf

namespace Repository.Shows

variable {σ : Type} {r : Repository σ} {R : Shelf → σ → Prop} {shelf : Shelf} {store : σ}
  {inv : Invoice} {p : Invoice → Prop} {test : Invoice → Bool}

/-- What a store gives is what is on the shelf. -/
theorem gives_iff (h : r.Shows R) (hR : R shelf store) (horder : shelf.Orderly) :
    r.Gives store inv ↔ inv ∈ shelf.invoices := by
  have hfound : ((r.findById inv.id.text).on store).1 = .ok (shelf.stored? inv.id.text) :=
    (h.findById inv.id.text hR).1
  rw [Gives, hfound, ← horder.stored?_eq_some_iff, Except.ok.injEq]

theorem selects_filter (h : r.Shows R) (hR : R shelf store) (horder : shelf.Orderly)
    (htest : ∀ i, test i = true ↔ p i) : r.Selects store p (shelf.invoices.filter test) := by
  refine ⟨horder.ids.sublist (List.filter_sublist.map _), fun inv => ?_⟩
  rw [List.mem_filter, h.gives_iff hR horder, htest]

/-- A store that shows a shelf finds what is on the shelf. -/
theorem searchesByLookingUp (h : r.Shows R) (hR : R shelf store) (horder : shelf.Orderly) :
    r.SearchesByLookingUp store where
  client client := ⟨_, (h.findByClient client hR).1,
    h.selects_filter hR horder fun i => beq_iff_eq⟩
  status status := ⟨_, (h.findByStatus status hR).1,
    h.selects_filter hR horder fun i => beq_iff_eq⟩
  drafts user := ⟨_, (h.findDraftsBy user hR).1,
    h.selects_filter hR horder fun i => by simp⟩
  overdue today := by
    have hselects := h.selects_filter hR horder (p := fun inv => inv.isOverdue today = true)
      fun i => Iff.rfl
    refine ⟨_, (h.findOverdue today hR).1, hselects.perm (List.mergeSort_perm _ _), ?_⟩
    -- due dates are ordered like their numbers
    refine List.pairwise_mergeSort (fun a b c hab hbc => ?_) (fun a b => ?_) _
    · simp only [Date.le, decide_eq_true_eq] at hab hbc ⊢
      omega
    · simp only [Date.le, Bool.or_eq_true, decide_eq_true_eq]
      omega
  number number := by
    refine ⟨_, (h.findByNumber number hR).1, ?_, ?_⟩
    · rw [(h.existsNumber number hR).1]
      exact congrArg Except.ok List.isSome_find?.symm
    · rw [← horder.filter_number]
      exact h.selects_filter hR horder fun i => beq_iff_eq

end Repository.Shows

/-! ## Stores in use show a shelf -/

namespace Keeping.Listing

variable {σ : Type} {k : Keeping σ} {l : k.Listing} {store : σ} {shelf : Shelf}

/-- An entry of an invoice says what it is called, and at which version it is. -/
def Names (l : k.Listing) (inv : Invoice) (e : String × k.Stored) : Prop :=
  e.1 = inv.id.text ∧ l.number e.2 = inv.number.value ∧ k.version e.2 = inv.version

/-- Entries that are told apart show an orderly shelf. -/
theorem Distinct.orderly (hdistinct : l.Distinct store)
    (h : List.Forall₂ l.Names shelf.invoices (l.entries store)) : shelf.Orderly where
  ids := by
    have hids := map_eq_of_forall₂ (f := fun i : Invoice => i.id.text) (g := Prod.fst) h
      fun i e he => he.1.symm
    rw [hids]
    exact hdistinct.ids
  numbers := by
    have hnumbers := map_eq_of_forall₂ (f := fun i : Invoice => i.number.value)
      (g := fun e => l.number e.2) h fun i e he => he.2.1.symm
    rw [hnumbers]
    exact hdistinct.numbers
  versions i hi := by
    have hversions := map_eq_of_forall₂ (f := Invoice.version) (g := fun e => k.version e.2) h
      fun i e he => he.2.2.symm
    have hmem := List.mem_map_of_mem (f := Invoice.version) hi
    rw [hversions] at hmem
    obtain ⟨e, he, heq⟩ := List.mem_map.1 hmem
    rw [← heq]
    exact hdistinct.versions e he

end Keeping.Listing

namespace MemoryStore

variable {store : MemoryStore} {inv : Invoice} {e : String × Json}

theorem EntryOf.names (h : EntryOf inv e) : listing.Names inv e := by
  refine ⟨h.id_eq, ?_, h.versionOf_eq⟩
  obtain ⟨saved, s, hs, -, rfl, rfl⟩ := h
  exact (numberOf_toJson s).trans (Snapshot.id_number_version_of hs).2.1

/-- Whatever is in a store in use shows an invoice. -/
theorem exists_entryOf (h : keeping.Used store) (he : e ∈ store.entries) :
    ∃ inv, EntryOf inv e := by
  have hsound := lawful.sound h.reached
  refine listing_lawful.of_used (P := fun id data => ∃ inv, EntryOf inv (id, data)) lawful ?_ h
    ((listing_lawful.storedAt_eq_some_iff hsound).2 he)
  intro store inv saved after data _ hproper hsave hdata
  obtain ⟨-, s, hs, -, rfl⟩ := on_save_eq_ok hsave
  obtain rfl : s.toJson = data :=
    Option.some.inj ((dataAt?_put_self inv.id.text s.toJson store.entries).symm.trans hdata)
  have hcurrency := hproper.oneCurrency
  exact ⟨_, _, s, hs, ⟨hcurrency.items, hcurrency.paid⟩, rfl, rfl⟩

theorem exists_shelf (h : keeping.Used store) : ∃ shelf, Shown shelf store ∧ shelf.Orderly := by
  obtain ⟨invoices, hinvoices⟩ := exists_forall₂ fun e he => exists_entryOf h he
  have hdistinct := listing_lawful.distinct_of_reached lawful h.reached
  exact ⟨⟨invoices⟩, hinvoices, hdistinct.orderly (hinvoices.imp fun _ _ he => he.names)⟩

end MemoryStore

namespace Tables

variable {tables : Tables} {i : Invoice} {row : InvoiceRow}

/-- What tables hold of an invoice, as it was saved. -/
def RecordOf (saved : Invoice) (r : Record) : Prop :=
  saved.OneCurrency ∧ r = ⟨rowOf saved saved.version, itemRows saved⟩

theorem exists_recordOf (h : keeping.Used tables) {id : String} {r : Record}
    (hr : tables.recordAt? id = some r) : ∃ saved, RecordOf saved r := by
  refine listing_lawful.of_used (P := fun _ r => ∃ saved, RecordOf saved r) lawful ?_ h hr
  intro tables inv saved after r hsound hproper hsave hr
  obtain ⟨-, hwritten, -⟩ := Sound.on_save_eq_ok hsound hsave
  have hcurrency := hproper.oneCurrency
  exact ⟨{ inv with version := inv.version + 1 }, ⟨hcurrency.items, hcurrency.paid⟩,
    Option.some.inj (hr.symm.trans hwritten.recordAt?_self)⟩

/-- Whatever is in tables in use shows an invoice. -/
theorem exists_rowOf (h : keeping.Used tables) (hrow : row ∈ tables.invoices) :
    ∃ i, RowOf tables.items i row := by
  have hsound := lawful.sound h.reached
  have hrecord : tables.recordAt? row.id =
      some ⟨row, tables.items.filter fun r => r.invoiceId == row.id⟩ :=
    (listing_lawful.storedAt_eq_some_iff hsound).2 (List.mem_map_of_mem hrow)
  obtain ⟨saved, hcurrency, hsaved⟩ := exists_recordOf h hrecord
  obtain ⟨rfl, hitems⟩ := Record.mk.inj hsaved
  exact ⟨_, saved, hcurrency, rfl, rfl, hitems⟩

theorem exists_shelf (h : keeping.Used tables) : ∃ shelf, Shown shelf tables ∧ shelf.Orderly := by
  obtain ⟨invoices, hinvoices⟩ := exists_forall₂ fun row hrow => exists_rowOf h hrow
  have hdistinct := listing_lawful.distinct_of_reached lawful h.reached
  have hnames : List.Forall₂ listing.Names invoices (listing.entries tables) := by
    refine List.forall₂_map_right_iff.2 (hinvoices.imp fun i row hrow => ?_)
    obtain ⟨hid, hnumber, -, -, -, -, hversion⟩ := hrow.columns
    exact ⟨hid, hnumber, hversion⟩
  exact ⟨⟨invoices⟩, ⟨hinvoices, keysDistinct_of_reached h.reached, lawful.sound h.reached⟩,
    hdistinct.orderly hnames⟩

end Tables

/-! ## Both stores -/

namespace Backend

variable {b : Backend} {store : b.Store}

/-- What either store shows. -/
def Shown : (b : Backend) → Shelf → b.Store → Prop
  | memory => MemoryStore.Shown
  | tables => Tables.Shown

theorem shows (b : Backend) : b.keeping.repository.Shows b.Shown := by
  cases b with
  | memory => exact MemoryStore.shows
  | tables => exact Tables.shows

theorem exists_shelf (h : b.keeping.Used store) :
    ∃ shelf, b.Shown shelf store ∧ shelf.Orderly := by
  cases b with
  | memory => exact MemoryStore.exists_shelf h
  | tables => exact Tables.exists_shelf h

/-- In a store in use, whatever is stored is found under its identifier, and every search finds what
one finds by looking up all of it: the invoices of a client, in a state, the drafts of an issuer,
those that are overdue by their due dates, and the one that has a number. -/
theorem searches_by_looking_up (b : Backend) (store : b.Store) (used : b.keeping.Used store) :
    (∀ id, ∃ found, ((b.keeping.repository.findById id).on store).1 = .ok found ∧
      found.isSome = (b.keeping.storedAt store id).isSome ∧
        ∀ inv, found = some inv → inv.id.text = id) ∧
    b.keeping.repository.SearchesByLookingUp store := by
  obtain ⟨shelf, hshown, horder⟩ := exists_shelf used
  refine ⟨fun id => ?_, b.shows.searchesByLookingUp hshown horder⟩
  have hfound : ((b.keeping.repository.findById id).on store).1 = .ok (shelf.stored? id) :=
    (b.shows.findById id hshown).1
  have hlookup := congrArg Prod.fst (b.lawful.findById id (b.lawful.sound used.reached))
  exact ⟨_, hfound, Keeping.isSome_of_lookup (hlookup.symm.trans hfound),
    fun inv hinv => (Shelf.mem_of_stored? hinv).2⟩

end Backend

namespace Invoice

/-- The sample invoice has been sent, and is overdue after January 2030. -/
theorem searches_by_looking_up_sample :
    Backend.memory.keeping.Used sampleStore ∧
      ∃ found, ((MemoryStore.findOverdue ⟨2030, 2, 1, by decide⟩).on sampleStore).1 = .ok found ∧
        MemoryStore.repository.Selects sampleStore
          (fun inv => inv.isOverdue ⟨2030, 2, 1, by decide⟩ = true) found ∧
        found.map (fun i => i.id) = [sample.id] := by
  have hproper : (sample.run sampleSending).Proper :=
    (proper_of_restore (create_eq_ok create_sample).1).run sampleSending
  have hused : Backend.memory.keeping.Used sampleStore := .save _ hproper .empty
  obtain ⟨found, hfound, hselects, -⟩ :=
    (Backend.searches_by_looking_up .memory sampleStore hused).2.overdue ⟨2030, 2, 1, by decide⟩
  refine ⟨hused, found, hfound, hselects, ?_⟩
  have hids : ((MemoryStore.findOverdue ⟨2030, 2, 1, by decide⟩).on sampleStore).1.map
      (fun found => found.map fun i => i.id) = .ok [sample.id] := by decide +kernel
  have hfound : ((MemoryStore.findOverdue ⟨2030, 2, 1, by decide⟩).on sampleStore).1 =
      .ok found := hfound
  rw [hfound] at hids
  exact Except.ok.inj hids

end Invoice

end Billing
