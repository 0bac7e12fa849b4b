import Billing.Proofs.Store.Loaded

set_option autoImplicit false

/-! # Saving what is new

An invoice at version 0 has not been stored yet. Where something is stored under its identifier, it
is refused (`Backend.on_save_of_present`). Where its identifier is new and its number is free, it is
stored at version 1, unless what a store computes of it cannot be computed
(`Backend.on_save_of_new`).
-/

namespace Billing

namespace Keeping.Listing

variable {σ : Type} {k : Keeping σ} {l : k.Listing} {store : σ} {inv : Invoice}

/-- Whether something is stored under a number. -/
def HasNumber (l : k.Listing) (store : σ) (number : String) : Prop :=
  ∃ e ∈ l.entries store, l.number e.2 = number

instance (l : k.Listing) (store : σ) (number : String) : Decidable (l.HasNumber store number) :=
  inferInstanceAs (Decidable (∃ e ∈ l.entries store, l.number e.2 = number))

theorem not_taken_of_free (h : ¬ l.HasNumber store inv.number.value) : ¬ l.Taken store inv :=
  fun ⟨e, he, _, hnumber⟩ => h ⟨e, he, hnumber⟩

end Keeping.Listing

/-! ## The store in memory -/

namespace MemoryStore

variable {store : MemoryStore} {inv : Invoice} {data : Json}

theorem on_save_of_present (h : store.Sound) (hzero : inv.version = 0)
    (hstored : store.dataAt? inv.id.text = some data) :
    (save inv).on store =
      (.error (.conflict inv.id.text 0 (some (versionOf data))), store) := by
  have hpos : 1 ≤ versionOf data := lawful.version_pos h hstored
  have hstale : isStale inv (some data) = true := by
    rw [isStale, decide_eq_true_eq]
    omega
  rw [on_save, hstored, if_pos hstale, hzero, Option.map_some]

/-- Nothing but the snapshot stands between a new invoice and a store in memory. -/
theorem on_save_of_new (h : store.Sound) (hzero : inv.version = 0)
    (hnew : store.dataAt? inv.id.text = none)
    (hfree : ¬ listing.HasNumber store inv.number.value) :
    (save inv).on store = match Snapshot.of inv with
      | .error e => (.error (.refused e), store)
      | .ok s => (.ok (inv.atVersion 1),
          ⟨put inv.id.text { s with version := 1 }.toJson store.entries⟩) := by
  have hfresh : isStale inv (store.dataAt? inv.id.text) = false :=
    isStale_eq_false_iff.2 (.inl ⟨hnew, hzero⟩)
  have hother := mt (h.taken_iff inv).1 (Keeping.Listing.not_taken_of_free hfree)
  rw [on_save, hfresh, if_neg Bool.false_ne_true, if_neg hother, hzero]
  rfl

end MemoryStore

/-! ## Tables -/

namespace Tables

variable {tables : Tables} {inv : Invoice} {r : Record}

theorem on_save_of_present (hzero : inv.version = 0)
    (hstored : tables.recordAt? inv.id.text = some r) :
    (save inv).on tables =
      (.error (.conflict inv.id.text 0 (some r.row.version)), tables) := by
  have hversion : tables.version? inv.id.text = some r.row.version := by
    rw [version?_eq, hstored, Option.map_some]
  -- when it is explained why the row is not inserted, the identifier is looked at first
  rw [on_save, if_pos hzero, insert?_of_record hstored, committed, violation, hversion, hzero]
  rfl

/-- No row of an item is without an invoice, so nothing is in the way of the items of a new one. -/
theorem on_save_of_new (h : keeping.Reached tables) (hzero : inv.version = 0)
    (hnew : tables.recordAt? inv.id.text = none)
    (hfree : ¬ listing.HasNumber tables inv.number.value) (hitems : ItemsApart inv.items) :
    ∃ after, (save inv).on tables = (.ok (inv.atVersion 1), after) := by
  have hany : (tables.invoices.any fun row =>
      row.id == inv.id.text || row.number == inv.number.value) = false := by
    rw [List.any_eq_false]
    intro row hrow htest
    rcases Bool.or_eq_true_iff.1 htest with hid | hnumber
    · exact recordAt?_eq_none_iff.1 hnew row hrow (eq_of_beq hid)
    · exact hfree ⟨_, List.mem_map_of_mem hrow, eq_of_beq hnumber⟩
  have hkeys := keysDistinct_replace (keysDistinct_of_reached h) (nodup_texts_iff.2 hitems)
  rw [(lawful.sound h).filter_items_of_none hnew] at hkeys
  have hnext : inv.atVersion (inv.version + 1) = inv.atVersion 1 := by
    rw [hzero]
    rfl
  rw [on_save, if_pos hzero, insert?, hany, hkeys, ← hnext]
  exact ⟨_, rfl⟩

end Tables

/-! ## Both stores -/

namespace Backend

open Access

variable {b : Backend} {store : b.Store} {inv : Invoice} {st : b.keeping.Stored}

/-- What a store computes of an invoice before it writes it: in memory, a snapshot is taken. -/
def computes : Backend → Invoice → Except Failure Unit
  | memory, inv => (Snapshot.of inv).map fun _ => ()
  | tables, _ => .ok ()

theorem on_save_of_present (h : b.keeping.Reached store) (hzero : inv.version = 0)
    (hstored : b.keeping.storedAt store inv.id.text = some st) :
    (b.keeping.repository.save inv).on store =
      (.error (.conflict inv.id.text 0 (some (b.keeping.version st))), store) := by
  cases b with
  | memory => exact MemoryStore.on_save_of_present (MemoryStore.lawful.sound h) hzero hstored
  | tables => exact Tables.on_save_of_present hzero hstored

theorem on_save_of_new (h : b.keeping.Reached store) (hzero : inv.version = 0)
    (hnew : b.keeping.storedAt store inv.id.text = none)
    (hfree : ¬ b.listing.HasNumber store inv.number.value) (hitems : b.Admits inv.items) :
    ∃ after, (b.keeping.repository.save inv).on store =
      (refusing ((b.computes inv).map fun _ => inv.atVersion 1), after) := by
  cases b with
  | memory =>
      have hsave := MemoryStore.on_save_of_new (MemoryStore.lawful.sound h) hzero hnew hfree
      rw [computes]
      cases hs : Snapshot.of inv <;> rw [hs] at hsave <;> exact ⟨_, hsave⟩
  | tables => exact Tables.on_save_of_new h hzero hnew hfree hitems

end Backend

end Billing
