import Billing.Proofs.Invoice.Run
import Billing.Proofs.Store.Shelf
import Billing.Proofs.Store.Tables

set_option autoImplicit false

/-! # The rows of items

Tables hold the items of all invoices in one relation, and each save replaces the rows of its
invoice. A `Ledger` follows a list of calls and notes, beside the store, which invoice was the last
to be saved under each identifier. Whatever the calls are and however they end, the rows of items
are those of the invoices in the ledger, numbered from 0, and there are no others
(`Tables.items_are_last_saved`).
-/

namespace Billing

/-! ## Keeping a ledger -/

/-- A store, and the invoice whose save was the last to succeed under each identifier. There is none
under an identifier that has not been saved since it was deleted. -/
structure Ledger (σ : Type) where
  store : σ
  lastSaved : String → Option Invoice

namespace Ledger

variable {σ : Type}

/-- What is noted of a call and its reply: saves that succeed, and deletions. -/
def noted (lastSaved : String → Option Invoice) :
    StoreCall → StoreReply → String → Option Invoice
  | .save inv, .saved (.ok _), id => if id = inv.id.text then some inv else lastSaved id
  | .delete deleted, .told (.ok _), id => if id = deleted then none else lastSaved id
  | _, _, id => lastSaved id

/-- The ledger after a call, whether the call succeeds or fails. -/
def after (r : Repository σ) (ledger : Ledger σ) (call : StoreCall) : Ledger σ where
  store := (r.call ledger.store call).2
  lastSaved := noted ledger.lastSaved call (r.call ledger.store call).1

/-- The ledger of a list of calls. -/
def run (r : Repository σ) (ledger : Ledger σ) (calls : List StoreCall) : Ledger σ :=
  calls.foldl (after r) ledger

end Ledger

namespace Tables

open Access

variable {tables : Tables} {ledger : Ledger Tables} {inv : Invoice} {id : String}

/-- Tables in which nothing has been saved. -/
def blankLedger : Ledger Tables := ⟨empty, fun _ => none⟩

/-- The tables after a list of calls, and what was last saved there. -/
def ledgerOf (calls : List StoreCall) : Ledger Tables := blankLedger.run repository calls

/-! ## One call -/

/-- What the tables hold of an invoice after it has been saved. -/
def recordOf (inv : Invoice) : Record := ⟨rowOf inv (inv.version + 1), itemRows inv⟩

/-- Under each identifier, the tables hold what was last saved under it, and nothing else. -/
structure Faithful (ledger : Ledger Tables) : Prop where
  sound : ledger.store.Sound
  records : ∀ id, ledger.store.recordAt? id = (ledger.lastSaved id).map recordOf

theorem faithful_blankLedger : Faithful blankLedger := ⟨sound_empty, fun _ => rfl⟩

theorem Faithful.after_save (h : Faithful ledger) (inv : Invoice) :
    Faithful (ledger.after repository (.save inv)) := by
  cases hsave : (save inv).on ledger.store with
  | mk r after =>
      have hcall : repository.call ledger.store (.save inv) = (.saved r, after) :=
        congrArg (Prod.map StoreReply.saved (fun store => store)) hsave
      unfold Ledger.after
      rw [hcall]
      cases r with
      | error e =>
          -- a save that fails has written nothing
          obtain rfl := after_of_save_error hsave
          exact h
      | ok saved =>
          refine ⟨(lawful.save h.sound hsave).sound, fun id => ?_⟩
          obtain ⟨-, hwritten, -⟩ := h.sound.on_save_eq_ok hsave
          show after.recordAt? id =
            (if id = inv.id.text then some inv else ledger.lastSaved id).map recordOf
          by_cases hid : id = inv.id.text
          · rw [if_pos hid, hid, hwritten.recordAt?_self]
            rfl
          · rw [if_neg hid, hwritten.recordAt?_of_ne hid]
            exact h.records id

theorem Faithful.after_delete (h : Faithful ledger) (deleted : String) :
    Faithful (ledger.after repository (.delete deleted)) := by
  cases hdelete : (delete deleted).on ledger.store with
  | mk r after =>
      obtain ⟨rfl, hnone, hothers⟩ := delete_after hdelete
      have hcall : repository.call ledger.store (.delete deleted) = (.told _, after) :=
        congrArg (Prod.map StoreReply.told (fun store => store)) hdelete
      unfold Ledger.after
      rw [hcall]
      refine ⟨h.sound.delete hdelete, fun id => ?_⟩
      show after.recordAt? id =
        (if id = deleted then none else ledger.lastSaved id).map recordOf
      by_cases hid : id = deleted
      · rw [if_pos hid, hid, hnone]
        rfl
      · rw [if_neg hid, hothers id hid]
        exact h.records id

/-- Looking something up changes neither the tables nor the ledger. -/
theorem after_of_reads {α : Type} {step : Access Tables α} {r : Except StoreFailure α}
    {call : StoreCall} (reply : Except StoreFailure α → StoreReply)
    (hcall : repository.call ledger.store call =
      Prod.map reply (fun tables => tables) (step.on ledger.store))
    (hnoted : ∀ r, Ledger.noted ledger.lastSaved call (reply r) = ledger.lastSaved)
    (hreads : step.Reads ledger.store r) : ledger.after repository call = ledger := by
  unfold Reads at hreads
  rw [hreads] at hcall
  rw [Ledger.after, hcall]
  exact congrArg (Ledger.mk ledger.store) (hnoted r)

theorem Faithful.after (h : Faithful ledger) (call : StoreCall) :
    Faithful (ledger.after repository call) := by
  have hwhere (test : InvoiceRow → Bool) := reads_loadWhere test ledger.store
  cases call with
  | save inv => exact h.after_save inv
  | delete deleted => exact h.after_delete deleted
  | findById id =>
      rw [after_of_reads .found rfl (fun _ => rfl) ((hwhere _).map List.head?)]
      exact h
  | findByNumber number =>
      rw [after_of_reads .found rfl (fun _ => rfl) ((hwhere _).map List.head?)]
      exact h
  | findByClient client =>
      rw [after_of_reads .listed rfl (fun _ => rfl) (hwhere _)]
      exact h
  | findByStatus status =>
      rw [after_of_reads .listed rfl (fun _ => rfl) (hwhere _)]
      exact h
  | findDraftsBy user =>
      rw [after_of_reads .listed rfl (fun _ => rfl) (hwhere _)]
      exact h
  | findOverdue today =>
      have hload : (findOverdue today).Reads ledger.store _ := reads_ofResult _ _
      rw [after_of_reads .listed rfl (fun _ => rfl) hload]
      exact h
  | existsNumber number => exact h

/-! ## Lists of calls -/

theorem Faithful.run (h : Faithful ledger) (calls : List StoreCall) :
    Faithful (ledger.run repository calls) := by
  induction calls generalizing ledger with
  | nil => exact h
  | cons call calls ih =>
      show Faithful ((ledger.after repository call).run repository calls)
      exact ih (h.after call)

theorem itemsOf_eq_nil (h : tables.Sound) (hnone : tables.recordAt? id = none) :
    tables.itemsOf id = [] := by
  have hrows : (tables.items.filter fun row => row.invoiceId == id) = [] := by
    rw [List.filter_eq_nil_iff]
    intro r hr hid
    have hsome := h.items r hr
    rw [beq_iff_eq.1 hid, hnone] at hsome
    cases hsome
  rw [itemsOf, hrows, List.mergeSort_nil]

/-- The rows of a saved invoice stand in the tables in their order. -/
theorem itemsOf_of_recordAt? (h : tables.recordAt? id = some (recordOf inv)) :
    tables.itemsOf id = itemRows inv := by
  obtain ⟨-, -, hitems⟩ := recordAt?_eq_some h
  rw [itemsOf, ← hitems]
  exact mergeSort_itemRows inv

theorem map_position_itemRows (inv : Invoice) :
    (itemRows inv).map ItemRow.position = List.range inv.items.length := by
  rw [itemRows, List.map_map, List.range_eq_range']
  exact List.zipIdx_map_snd 0 inv.items

/-- Whatever has been asked of the tables, and however it ended: each row of an item belongs to the
row of an invoice. Under an identifier that is not in use there are no rows of items. Under any
other one, the rows are those of the invoice whose save was the last to succeed, at positions from 0
without gaps, and they are read back as its items in their order. -/
theorem items_are_last_saved (calls : List StoreCall) :
    (∀ r ∈ (ledgerOf calls).store.items,
      ∃ row ∈ (ledgerOf calls).store.invoices, row.id = r.invoiceId) ∧
    ∀ id,
      ((ledgerOf calls).lastSaved id = none →
        (∀ row ∈ (ledgerOf calls).store.invoices, row.id ≠ id) ∧
          (ledgerOf calls).store.itemsOf id = []) ∧
      ∀ inv, (ledgerOf calls).lastSaved id = some inv →
        (ledgerOf calls).store.itemsOf id = itemRows inv ∧
          ((ledgerOf calls).store.itemsOf id).map ItemRow.position =
            List.range inv.items.length ∧
          ∃ row ∈ (ledgerOf calls).store.invoices, row.id = id ∧
            (inv.OneCurrency →
              ((ledgerOf calls).store.itemsOf id).mapM (itemOf row.currency) = .ok inv.items) := by
  obtain ⟨hsound, hrecords⟩ : Faithful (ledgerOf calls) := faithful_blankLedger.run calls
  refine ⟨fun r hr => ?_, fun id => ⟨fun hnone => ?_, fun inv hinv => ?_⟩⟩
  · obtain ⟨record, hrecord⟩ := Option.isSome_iff_exists.1 (hsound.items r hr)
    obtain ⟨hrow, hid, -⟩ := recordAt?_eq_some hrecord
    exact ⟨record.row, hrow, hid⟩
  · have hfree := hrecords id
    rw [hnone, Option.map_none] at hfree
    exact ⟨recordAt?_eq_none_iff.1 hfree, itemsOf_eq_nil hsound hfree⟩
  · have hstored := hrecords id
    rw [hinv, Option.map_some] at hstored
    obtain ⟨hrow, hid, -⟩ := recordAt?_eq_some hstored
    rw [itemsOf_of_recordAt? hstored]
    exact ⟨rfl, map_position_itemRows inv, _, hrow, hid, fun h => mapM_itemOf h.items⟩

end Tables

/-! ## Calls to look at -/

namespace Invoice

/-- One hour on the way at 5.00 USD. -/
def sampleTravel : LineItem where
  id := ⟨"travel", by decide⟩
  description := ⟨"Travel", by decide, by decide⟩
  quantity := ⟨false, 10, -1⟩
  unitPrice := LineItem.sample.unitPrice
  taxRate := .noTax
  quantity_pos := by decide
  quantity_readable := by decide +kernel
  unitPrice_pos := LineItem.sample.unitPrice_pos

/-- The sample invoice over work and travel. -/
def sampleTwoItems : Invoice :=
  sample.run [sampleStep (.addItem .sample), sampleStep (.addItem sampleTravel)]

/-- The sample invoice once it has been saved, with the first of its two items moved to the end. -/
def sampleReordered : Invoice :=
  (sampleTwoItems.run [sampleStep (.removeItem "work"), sampleStep (.addItem .sample)]).atVersion 1

/-- The sample invoice is saved, reordered and saved again. Another save of the first copy fails,
and so does one of an invoice that has the same number. -/
def sampleSaves : List StoreCall :=
  [.save sampleTwoItems, .save sampleReordered, .save sampleTwoItems, .existsNumber "INV-000001",
    .save { sampleTwoItems with id := ⟨"other", by decide⟩ }, .delete "other"]

/-- The rows that are left are those of the second save, in their new order. -/
theorem items_are_last_saved_sample :
    (Tables.ledgerOf sampleSaves).lastSaved sample.id.text = some sampleReordered ∧
      sampleReordered.OneCurrency ∧
      ((Tables.ledgerOf sampleSaves).store.itemsOf sample.id.text).map ItemRow.id =
        ["travel", "work"] ∧
      ((Tables.ledgerOf sampleSaves).store.itemsOf sample.id.text).mapM (Tables.itemOf "USD") =
        .ok [sampleTravel, .sample] ∧
      (Tables.ledgerOf sampleSaves).store.itemsOf "other" = [] := by
  have hlast : (Tables.ledgerOf sampleSaves).lastSaved sample.id.text = some sampleReordered := by
    decide +kernel
  have hnone : (Tables.ledgerOf sampleSaves).lastSaved "other" = none := by decide +kernel
  have hcurrency : sampleReordered.OneCurrency := ⟨by decide +kernel, by decide +kernel⟩
  obtain ⟨-, hitems⟩ := Tables.items_are_last_saved sampleSaves
  obtain ⟨hrows, -, row, hrow, hid, hread⟩ := (hitems sample.id.text).2 sampleReordered hlast
  refine ⟨hlast, hcurrency, ?_, ?_, ((hitems "other").1 hnone).2⟩
  · rw [hrows]
    decide +kernel
  · have husd : row.currency = "USD" := by
      have hall : ∀ row ∈ (Tables.ledgerOf sampleSaves).store.invoices, row.currency = "USD" := by
        decide +kernel
      exact hall row hrow
    rw [husd] at hread
    exact (hread hcurrency).trans (by decide +kernel)

end Invoice

end Billing
