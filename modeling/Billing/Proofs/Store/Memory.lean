import Billing.Store.Memory
import Billing.Proofs.Keyed
import Billing.Proofs.Snapshot.Json
import Billing.Proofs.Snapshot.Reading
import Billing.Proofs.Store.Keeping

set_option autoImplicit false

/-! # Invoices kept in memory

What is stored under an identifier is a snapshot. The store is lawful (`MemoryStore.lawful`): the
version in the snapshot is checked before it is replaced, and a snapshot that has been stored is
read back.
-/

namespace Billing.MemoryStore

open Access Procedure

variable {store : MemoryStore} {inv : Invoice} {entries : List (String × Json)} {id other : String}
  {data : Json}

/-! ## Entries -/

theorem dataAt?_put_self (id : String) (data : Json) (entries : List (String × Json)) :
    dataAt? ⟨put id data entries⟩ id = some data := by
  rw [dataAt?, put, Keyed.find?_put_self Prod.fst (id, data), Option.map_some]

theorem dataAt?_put_of_ne (data : Json) (entries : List (String × Json)) (h : other ≠ id) :
    dataAt? ⟨put id data entries⟩ other = dataAt? ⟨entries⟩ other := by
  rw [dataAt?, put, Keyed.find?_put_of_ne h, dataAt?]

theorem mem_of_dataAt? (h : store.dataAt? id = some data) : (id, data) ∈ store.entries := by
  obtain ⟨e, he, rfl⟩ := Option.map_eq_some_iff.1 h
  obtain ⟨hmem, rfl⟩ := mem_of_find?_key he
  exact hmem

theorem dataAt?_filter_self (id : String) (entries : List (String × Json)) :
    dataAt? ⟨entries.filter fun e => e.1 != id⟩ id = none := by
  rw [dataAt?, find?_filter_key_self Prod.fst, Option.map_none]

theorem dataAt?_filter_of_ne (h : other ≠ id) (entries : List (String × Json)) :
    dataAt? ⟨entries.filter fun e => e.1 != id⟩ other = dataAt? ⟨entries⟩ other := by
  rw [dataAt?, find?_filter_key_of_ne h, dataAt?]

/-! ## Fields of a stored snapshot -/

theorem versionOf_toJson (s : Snapshot) : versionOf s.toJson = s.version := by
  simp [versionOf, Snapshot.toJson, Json.field?, Json.lookup?]

theorem hasText_number (number : String) (s : Snapshot) :
    hasText "number" number s.toJson = (s.number == number) := by
  simp [hasText, Snapshot.toJson, Json.field?, Json.lookup?]

theorem hasText_client (client : String) (s : Snapshot) :
    hasText "client_id" client s.toJson = (s.clientId == client) := by
  simp [hasText, Snapshot.toJson, Json.field?, Json.lookup?]

theorem hasText_status (status : String) (s : Snapshot) :
    hasText "status" status s.toJson = (s.status.name == status) := by
  simp [hasText, Snapshot.toJson, Json.field?, Json.lookup?]

theorem hasText_issuer (user : String) (s : Snapshot) :
    hasText "issued_by" user s.toJson = (s.issuedBy == user) := by
  simp [hasText, Snapshot.toJson, Json.field?, Json.lookup?]

/-! ## Calls -/

/-- What an entry holds, once it is read. -/
def loaded (data : Json) : Except StoreFailure Invoice :=
  match Snapshot.ofJson data with
  | .ok s => refusing (s.toInvoice (Fresh.following 0))
  | .bad ds => .error (.unreadable ds)

theorem reads_load (data : Json) (store : MemoryStore) : Reads (load data) store (loaded data) := by
  unfold load loaded
  cases Snapshot.ofJson data with
  | ok s => exact reads_ofResult _ _
  | bad ds => rfl

theorem reads_loadWhere (test : Json → Bool) (store : MemoryStore) :
    Reads (loadWhere test) store
      ((store.entries.filter fun e => test e.2).mapM fun e => loaded e.2) :=
  Reads.mapM (f := fun e : String × Json => load e.2) (fun e => reads_load e.2 store) _

theorem reads_findById (id : String) (store : MemoryStore) :
    Reads (findById id) store (match store.dataAt? id with
      | some data => (loaded data).map some
      | none => .ok none) := by
  unfold findById Reads
  rw [on_get_bind]
  cases store.dataAt? id with
  | none => rfl
  | some data => exact (reads_load data store).map some

/-- A save checks the version, then the number, and then writes. -/
theorem on_save (inv : Invoice) (store : MemoryStore) :
    (save inv).on store =
      if isStale inv (store.dataAt? inv.id.text) then
        (.error (.conflict inv.id.text inv.version ((store.dataAt? inv.id.text).map versionOf)),
          store)
      else if store.entries.any fun e =>
          e.1 != inv.id.text && hasText "number" inv.number.value e.2 then
        (.error (.numberTaken inv.number.value), store)
      else
        match Snapshot.of inv with
        | .error e => (.error (.refused e), store)
        | .ok s =>
            (.ok { inv with version := inv.version + 1 },
              ⟨put inv.id.text { s with version := inv.version + 1 }.toJson store.entries⟩) := by
  rw [save, saving, Saving.on_copyOf_through]
  simp only [write, on_get_bind, throw_bind, on_throw_if]
  split_ifs
  · rfl
  · rfl
  · cases Snapshot.of inv <;> rfl

/-- What is stored of an invoice is read back as the same invoice. -/
theorem loaded_toJson {s : Snapshot} (h : Snapshot.of inv = .ok s) (hcurrency : inv.OneCurrency) :
    loaded s.toJson = .ok (inv.reread Moment.stamped) := by
  have hread := Snapshot.toInvoice_of h hcurrency Moment.stamped (Fresh.following 0)
  rw [loaded, Snapshot.ofJson_toJson]
  exact refusing_eq_ok_iff.2 hread

/-! ## Laws -/

/-- Entries are snapshots under their own identifiers, of invoices that have been saved. -/
structure Sound (store : MemoryStore) : Prop where
  nodup : (store.entries.map Prod.fst).Nodup
  entries : ∀ e ∈ store.entries, e.1 ≠ "" ∧ ∃ s : Snapshot, e.2 = s.toJson ∧ s.id = e.1 ∧
    1 ≤ s.version

theorem sound_empty : empty.Sound := ⟨List.nodup_nil, nofun⟩

/-- The store in memory as a way of keeping invoices. -/
def keeping : Keeping MemoryStore where
  repository := repository
  empty := empty
  Stored := Json
  storedAt := dataAt?
  version := versionOf
  read := loaded
  times := Moment.stamped
  Sound := Sound

theorem Sound.entry (h : store.Sound) (hfound : store.dataAt? id = some data) :
    id ≠ "" ∧ ∃ s : Snapshot, data = s.toJson ∧ s.id = id ∧ 1 ≤ s.version :=
  h.entries _ (mem_of_dataAt? hfound)

theorem loaded_eq_ok {s : Snapshot} (hne : s.id ≠ "") (h : loaded s.toJson = .ok inv) :
    inv.id.text = s.id ∧ inv.version = s.version ∧ inv.Proper := by
  rw [loaded, Snapshot.ofJson_toJson] at h
  obtain ⟨items, -, h⟩ := Except.bind_eq_ok_iff.1 (refusing_eq_ok_iff.1 h)
  obtain ⟨paid, -, h⟩ := Except.bind_eq_ok_iff.1 h
  obtain ⟨hid, hversion⟩ := Invoice.id_version_of_restore h rfl hne
  exact ⟨hid, hversion, Invoice.proper_of_restore h⟩

theorem isStale_eq_false_iff :
    isStale inv (store.dataAt? inv.id.text) = false ↔
      (store.dataAt? inv.id.text = none ∧ inv.version = 0) ∨
        ∃ data, store.dataAt? inv.id.text = some data ∧ versionOf data = inv.version := by
  cases store.dataAt? inv.id.text <;> simp [isStale]

/-- What a save comes to: a failure that changes nothing, or a snapshot under the next version. -/
theorem on_save_cases {r : Except StoreFailure Invoice} {after : MemoryStore}
    (h : (save inv).on store = (r, after)) :
    (after = store ∧
      ((∃ actual, r = .error (.conflict inv.id.text inv.version actual)) ∨
        (∃ e, r = .error (.refused e)) ∨
          ((store.entries.any fun e =>
              e.1 != inv.id.text && hasText "number" inv.number.value e.2) = true ∧
            r = .error (.numberTaken inv.number.value)))) ∨
      (isStale inv (store.dataAt? inv.id.text) = false ∧
        (¬ (store.entries.any fun e =>
            e.1 != inv.id.text && hasText "number" inv.number.value e.2) = true) ∧
          ∃ s, Snapshot.of { inv with version := inv.version + 1 } = .ok s ∧
            r = .ok { inv with version := inv.version + 1 } ∧
              after = ⟨put inv.id.text s.toJson store.entries⟩) := by
  rw [on_save] at h
  split at h
  next =>
    obtain ⟨rfl, rfl⟩ := Prod.mk.inj h
    exact .inl ⟨rfl, .inl ⟨_, rfl⟩⟩
  next hfresh =>
    split at h
    next htaken =>
      obtain ⟨rfl, rfl⟩ := Prod.mk.inj h
      exact .inl ⟨rfl, .inr (.inr ⟨htaken, rfl⟩)⟩
    next hfree =>
      split at h
      next e _ =>
        obtain ⟨rfl, rfl⟩ := Prod.mk.inj h
        exact .inl ⟨rfl, .inr (.inl ⟨e, rfl⟩)⟩
      next s hs =>
        obtain ⟨rfl, rfl⟩ := Prod.mk.inj h
        exact .inr ⟨eq_false_of_ne_true hfresh, hfree, _,
          Snapshot.of_version hs (inv.version + 1), rfl, rfl⟩

/-- What a save that succeeds has checked, and what it has written. -/
theorem on_save_eq_ok {saved : Invoice} {after : MemoryStore}
    (h : (save inv).on store = (.ok saved, after)) :
    isStale inv (store.dataAt? inv.id.text) = false ∧
      ∃ s, Snapshot.of { inv with version := inv.version + 1 } = .ok s ∧
        saved = { inv with version := inv.version + 1 } ∧
        after = ⟨put inv.id.text s.toJson store.entries⟩ := by
  rcases on_save_cases h with ⟨-, ⟨_, hr⟩ | ⟨_, hr⟩ | ⟨-, hr⟩⟩ | ⟨hfresh, -, s, hs, hr, hafter⟩
  · cases hr
  · cases hr
  · cases hr
  · exact ⟨hfresh, s, hs, Except.ok.inj hr, hafter⟩

theorem Sound.put {s : Snapshot} (h : store.Sound) (hs : Snapshot.of inv = .ok s)
    (hpos : 1 ≤ inv.version) : Sound ⟨put inv.id.text s.toJson store.entries⟩ := by
  obtain ⟨hid, -, hversion⟩ := Snapshot.id_number_version_of hs
  refine ⟨Keyed.nodup_put _ h.nodup, fun e he => ?_⟩
  rcases Keyed.mem_put he with rfl | he
  · exact ⟨inv.id.text_ne, s, rfl, hid, hversion ▸ hpos⟩
  · exact h.entries e he

theorem on_delete (h : (store.entries.map Prod.fst).Nodup) (id : String) :
    (delete id).on store =
      (.ok (store.dataAt? id).isSome, ⟨store.entries.filter fun e => e.1 != id⟩) := by
  rw [← eraseP_key h]
  rfl

theorem Sound.delete (h : store.Sound) (id : String) :
    Sound ⟨store.entries.filter fun e => e.1 != id⟩ where
  nodup := h.nodup.sublist (List.filter_sublist.map _)
  entries e he := h.entries e (List.mem_of_mem_filter he)

theorem saved_of_on_save {saved : Invoice} {after : MemoryStore} (hsound : store.Sound)
    (h : (save inv).on store = (.ok saved, after)) : keeping.Saved inv store saved after := by
  obtain ⟨hfresh, s, hs, rfl, rfl⟩ := on_save_eq_ok h
  have hcurrent := isStale_eq_false_iff.1 hfresh
  -- the next version is at least 1, as the present one is 0 or that of what is stored
  have hpos : 1 ≤ inv.version + 1 := by
    rcases hcurrent with ⟨-, hzero⟩ | ⟨data, hfound, hversion⟩
    · omega
    · obtain ⟨-, s, rfl, -, hpos⟩ := hsound.entry hfound
      rw [versionOf_toJson] at hversion
      omega
  have hput := hsound.put hs hpos
  refine ⟨rfl, hcurrent, ⟨s.toJson, dataAt?_put_self _ _ _, ?_, ?_⟩, ?_, hput⟩
  · show versionOf s.toJson = inv.version + 1
    rw [versionOf_toJson, (Snapshot.id_number_version_of hs).2.2]
  · intro hcurrency
    exact loaded_toJson hs ⟨hcurrency.items, hcurrency.paid⟩
  · intro id hid
    exact dataAt?_put_of_ne _ _ hid

theorem after_of_save_error {e : StoreFailure} {after : MemoryStore}
    (h : (save inv).on store = (.error e, after)) : after = store := by
  rcases on_save_cases h with ⟨hafter, -⟩ | ⟨-, -, s, -, hr, -⟩
  · exact hafter
  · cases hr

theorem lawful : keeping.Lawful where
  times_times := Moment.stamped_stamped
  sound_empty := sound_empty
  version_pos := by
    intro store id data hsound hfound
    obtain ⟨-, s, rfl, -, hpos⟩ := Sound.entry hsound hfound
    exact hpos.trans_eq (versionOf_toJson s).symm
  read := by
    intro store id data inv hsound hfound hread
    obtain ⟨hne, s, rfl, rfl, -⟩ := Sound.entry hsound hfound
    obtain ⟨hid, hversion, hproper⟩ := loaded_eq_ok hne hread
    exact ⟨hid, hversion.trans (versionOf_toJson s).symm, hproper⟩
  findById := by
    intro store id _
    have h := reads_findById id store
    have hlookup : keeping.lookup (keeping.storedAt store id) = match store.dataAt? id with
        | some data => (loaded data).map some
        | none => .ok none := by
      show keeping.lookup (store.dataAt? id) = _
      cases store.dataAt? id <;> rfl
    rw [hlookup]
    exact h
  save := saved_of_on_save
  save_error := after_of_save_error
  delete := by
    intro store after id r hsound h
    have h : (MemoryStore.delete id).on store = (r, after) := h
    rw [on_delete (Sound.nodup hsound)] at h
    obtain ⟨rfl, rfl⟩ := Prod.mk.inj h
    exact ⟨Sound.delete hsound id, rfl, dataAt?_filter_self _ _, fun other hother =>
      dataAt?_filter_of_ne hother _⟩

end Billing.MemoryStore
