import Billing.Proofs.Invoice.Totals
import Billing.Proofs.Store.Memory
import Billing.Proofs.Store.Shelf

set_option autoImplicit false

/-! # What the store in memory shows

The store in memory shows the invoices that its snapshots are read as (`MemoryStore.shows`).
-/

namespace Billing.MemoryStore

open Access

variable {store : MemoryStore} {shelf : Shelf} {inv : Invoice} {e : String × Json}
  {entries : List (String × Json)}

/-! ## One entry -/

/-- An entry shows an invoice if it is the snapshot of one that is read back as it. -/
def EntryOf (inv : Invoice) (e : String × Json) : Prop :=
  ∃ (saved : Invoice) (s : Snapshot), Snapshot.of saved = .ok s ∧ saved.OneCurrency ∧
    inv = saved.reread .stamped ∧ e = (saved.id.text, s.toJson)

/-- Universal time is read back from a snapshot as it is. -/
theorem shown_eq_reread (h : inv.Storable) :
    Shelf.shown inv = { inv with version := inv.version + 1 }.reread .stamped := by
  have htime : ∀ time ∈ [inv.finalizedAt, inv.sentAt, inv.paidAt, inv.voidedAt],
      time.map Moment.atUniversal = time.map Moment.stamped := by
    intro time htime
    cases time with
    | none => rfl
    | some m =>
        -- both ways of reading it leave universal time alone
        have hoffset := h.times _ htime m rfl
        rw [Option.map_some, Option.map_some, Moment.stamped_of_universal hoffset,
          Moment.atUniversal_of_universal hoffset]
  simp only [List.forall_mem_cons] at htime
  obtain ⟨hfinalized, hsent, hpaid, hvoided, -⟩ := htime
  simp only [Shelf.shown, Invoice.reread, hfinalized, hsent, hpaid, hvoided]

namespace EntryOf

theorem id_eq (h : EntryOf inv e) : e.1 = inv.id.text := by
  obtain ⟨saved, s, -, -, rfl, rfl⟩ := h
  rfl

theorem loaded_eq (h : EntryOf inv e) : loaded e.2 = .ok inv := by
  obtain ⟨saved, s, hs, hcurrency, rfl, rfl⟩ := h
  exact loaded_toJson hs hcurrency

theorem versionOf_eq (h : EntryOf inv e) : versionOf e.2 = inv.version := by
  obtain ⟨saved, s, hs, -, rfl, rfl⟩ := h
  calc versionOf s.toJson = s.version := versionOf_toJson s
    _ = saved.version := (Snapshot.id_number_version_of hs).2.2

/-- The texts by which snapshots are looked up are those of the invoice. -/
theorem hasText_eq (h : EntryOf inv e) (text : String) :
    hasText "number" text e.2 = (inv.number.value == text) ∧
      hasText "client_id" text e.2 = (inv.clientId.text == text) ∧
      hasText "issued_by" text e.2 = (inv.issuedBy.text == text) ∧
      hasText "status" text e.2 = (inv.status.name == text) := by
  obtain ⟨saved, s, hs, -, rfl, rfl⟩ := h
  obtain ⟨items, totals, -, -, rfl⟩ := Snapshot.of_eq_ok_iff.1 hs
  exact ⟨hasText_number text _, hasText_client text _, hasText_issuer text _,
    hasText_status text _⟩

/-- What has been saved shows the invoice that is put on the shelf. -/
theorem shown {s : Snapshot} (hstorable : inv.Storable)
    (hs : Snapshot.of { inv with version := inv.version + 1 } = .ok s) :
    EntryOf (Shelf.shown inv) (inv.id.text, s.toJson) := by
  obtain ⟨m, hbalance⟩ := hstorable.balance
  have hcurrency := Invoice.oneCurrency_of_balance hbalance
  exact ⟨{ inv with version := inv.version + 1 }, s, hs, ⟨hcurrency.items, hcurrency.paid⟩,
    shown_eq_reread hstorable, rfl⟩

end EntryOf

/-! ## Entries -/

/-- A store shows a shelf if its entries show the invoices on the shelf. -/
def Shown (shelf : Shelf) (store : MemoryStore) : Prop :=
  List.Forall₂ EntryOf shelf.invoices store.entries

theorem Shown.stored? (h : Shown shelf store) (id : String) :
    (shelf.stored? id = none ∧ store.dataAt? id = none) ∨
      ∃ i e, shelf.stored? id = some i ∧ store.dataAt? id = some e.2 ∧ EntryOf i e := by
  have hfind := find?_of_forall₂ (p := fun i : Invoice => i.id.text == id)
    (q := fun e : String × Json => e.1 == id) h fun i e he => by rw [he.id_eq]
  unfold Shelf.stored? MemoryStore.dataAt?
  rcases hfind with ⟨hi, he⟩ | ⟨i, e, hi, he, hentry⟩
  · exact .inl ⟨hi, by rw [he, Option.map_none]⟩
  · exact .inr ⟨i, e, hi, by rw [he, Option.map_some], hentry⟩

theorem Shown.version (h : Shown shelf store) (id : String) :
    (store.dataAt? id).map versionOf = (shelf.stored? id).map Invoice.version := by
  rcases h.stored? id with ⟨hnone, hnone'⟩ | ⟨i, e, hi, he, hentry⟩
  · rw [hnone, hnone']
    rfl
  · rw [hi, he, Option.map_some, Option.map_some, hentry.versionOf_eq]

theorem isStale_eq (inv : Invoice) (data : Option Json) :
    isStale inv data = decide ((data.map versionOf).getD 0 ≠ inv.version) := by
  cases data with
  | none => simp [isStale, eq_comm]
  | some data => rfl

theorem Shown.isTaken (h : Shown shelf store) (inv : Invoice) :
    (store.entries.any fun e => e.1 != inv.id.text && hasText "number" inv.number.value e.2) =
      shelf.isTaken inv := by
  refine (any_congr_of_forall₂ h fun i e he => ?_).symm
  rw [he.id_eq, (he.hasText_eq _).1]

theorem Shown.put {invoices : List Invoice} (h : List.Forall₂ EntryOf invoices entries)
    {data : Json} (hnew : EntryOf inv (inv.id.text, data)) :
    List.Forall₂ EntryOf (Shelf.put inv invoices) (put inv.id.text data entries) := by
  induction h with
  | nil => exact .cons hnew .nil
  | @cons i e invoices entries he hrest ih =>
      rw [Shelf.put, MemoryStore.put, Keyed.put, Keyed.put, he.id_eq]
      split
      · exact .cons hnew hrest
      · exact .cons he ih

/-! ## Calls -/

theorem Shown.loadWhere (h : Shown shelf store) (p : Invoice → Bool) (test : Json → Bool)
    (hp : ∀ i e, EntryOf i e → p i = test e.2) :
    Reads (loadWhere test) store (.ok (shelf.invoices.filter p)) := by
  have hread := reads_loadWhere test store
  have hload : ((store.entries.filter fun e => test e.2).mapM fun e => loaded e.2) =
      .ok (shelf.invoices.filter p) := by
    refine Except.mapM_eq_ok_iff.2 (List.Forall₂.flip ?_)
    exact (filter_of_forall₂ h hp).imp fun i e he => he.1.loaded_eq
  rw [hload] at hread
  exact hread

theorem Shown.findById (h : Shown shelf store) (id : String) :
    Reads (findById id) store (.ok (shelf.stored? id)) := by
  have hread := reads_findById id store
  rcases h.stored? id with ⟨hnone, hnone'⟩ | ⟨i, e, hi, he, hentry⟩
  · rw [hnone'] at hread
    rw [hnone]
    exact hread
  · simp only [he, hentry.loaded_eq] at hread
    rw [hi]
    exact hread

theorem Shown.findByNumber (h : Shown shelf store) (number : String) :
    Reads (findByNumber number) store
      (.ok (shelf.invoices.find? fun i => i.number.value == number)) := by
  have hread := (h.loadWhere (fun i => i.number.value == number) (hasText "number" number)
    fun i e he => ((he.hasText_eq number).1).symm).map List.head?
  rw [← List.head?_filter]
  exact hread

theorem Shown.findOverdue (h : Shown shelf store) (today : Date) :
    Reads (findOverdue today) store (.ok
      ((shelf.invoices.filter fun i => i.isOverdue today).mergeSort
        fun a b => a.dueDate.le b.dueDate)) := by
  have hread := (h.loadWhere (fun _ => true) (fun _ => true) fun _ _ _ => rfl).map
    fun invoices => (invoices.filter fun i => i.isOverdue today).mergeSort
      fun a b => a.dueDate.le b.dueDate
  rw [List.filter_true] at hread
  exact hread

theorem Shown.save (h : Shown shelf store) (hstorable : inv.Storable) :
    (save inv).Matches Shown store (Shelf.repository.save inv) shelf := by
  have hactual := h.version inv.id.text
  show (MemoryStore.save inv).Matches Shown store (Shelf.save inv) shelf
  rw [Access.Matches, on_save, Shelf.on_save, isStale_eq, hactual, h.isTaken]
  by_cases hstale : ((shelf.stored? inv.id.text).map Invoice.version).getD 0 ≠ inv.version
  · rw [if_pos (decide_eq_true hstale), if_pos hstale]
    exact ⟨rfl, h⟩
  · rw [if_neg (by simpa using hstale), if_neg hstale]
    by_cases htaken : shelf.isTaken inv = true
    · rw [if_pos htaken, if_pos htaken]
      exact ⟨rfl, h⟩
    · -- the balance can be computed, so there is a snapshot to write
      obtain ⟨m, hbalance⟩ := hstorable.balance
      obtain ⟨s, hs⟩ := Snapshot.exists_of_balance hbalance
      have hentry := EntryOf.shown hstorable (Snapshot.of_version hs (inv.version + 1))
      rw [if_neg htaken, if_neg htaken, hs]
      have hput := Shown.put h hentry
      exact ⟨rfl, hput⟩

theorem Shown.delete (h : Shown shelf store) (horder : shelf.Orderly) (id : String) :
    (delete id).Matches Shown store (Shelf.repository.delete id) shelf := by
  have hids : (shelf.invoices.map fun i => i.id.text) = store.entries.map Prod.fst :=
    map_eq_of_forall₂ h fun i e he => he.id_eq.symm
  have hdeleted := on_delete (hids ▸ horder.ids) id
  have hfound : (store.dataAt? id).isSome = (shelf.stored? id).isSome := by
    rcases h.stored? id with ⟨hnone, hnone'⟩ | ⟨i, e, hi, he, -⟩
    · simp [hnone, hnone']
    · simp [hi, he]
  show (MemoryStore.delete id).Matches Shown store (Shelf.delete id) shelf
  rw [Access.Matches, hdeleted, hfound]
  refine ⟨rfl, ?_⟩
  exact (filter_of_forall₂ h fun i e he => by rw [he.id_eq]).imp fun i e he => he.1

/-- The store in memory answers like the shelf of the invoices in it. -/
theorem shows : repository.Shows Shown where
  save h _ hstorable _ := h.save hstorable
  findById id h := (h.findById id).matches rfl h
  findByNumber number h := (h.findByNumber number).matches rfl h
  findByClient client h :=
    (h.loadWhere _ _ fun i e he => (he.hasText_eq client).2.1.symm).matches rfl h
  findByStatus status h := by
    refine (h.loadWhere (fun i => i.status == status) _ fun i e he => ?_).matches rfl h
    rw [(he.hasText_eq status.name).2.2.2, Status.name_beq_name]
  findOverdue today h := (h.findOverdue today).matches rfl h
  findDraftsBy user h := by
    refine (h.loadWhere (fun i => i.issuedBy.text == user && i.status == .draft) _
      fun i e he => ?_).matches rfl h
    rw [(he.hasText_eq user).2.2.1, (he.hasText_eq Status.draft.name).2.2.2, Status.name_beq_name]
  existsNumber number h := by
    have hany := any_congr_of_forall₂ (p := fun i : Invoice => i.number.value == number)
      (q := fun e : String × Json => hasText "number" number e.2) h
      fun i e he => (he.hasText_eq number).1.symm
    refine ⟨?_, h⟩
    exact congrArg Except.ok hany.symm
  delete id h horder := h.delete horder id

end Billing.MemoryStore
