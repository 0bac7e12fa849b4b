import Billing.Store.Tables
import Billing.Proofs.Keyed
import Billing.Proofs.Snapshot.Reading
import Billing.Proofs.Store.Keeping

set_option autoImplicit false

/-! # Invoices kept in tables

What is stored under an identifier is a row together with the rows of its items. The tables are
lawful (`Tables.lawful`): a row is only replaced under the version that it has, and what has been
written is read back, with moments taken as universal time.
-/

namespace Billing.Tables

open Access Procedure

variable {tables after : Tables} {inv saved : Invoice} {row : InvoiceRow} {id other : String}
  {version : Int}

/-! ## The rows of one invoice -/

theorem mem_itemRows {r : ItemRow} (h : r ∈ itemRows inv) :
    r.invoiceId = inv.id.text ∧ ∃ i ∈ inv.items, r.id = i.id.text := by
  obtain ⟨⟨i, n⟩, hi, rfl⟩ := List.mem_map.1 h
  exact ⟨rfl, i, List.fst_mem_of_mem_zipIdx hi, rfl⟩

theorem filter_itemRows_self (inv : Invoice) :
    (itemRows inv).filter (fun r => r.invoiceId == inv.id.text) = itemRows inv := by
  rw [List.filter_eq_self]
  intro r hr
  simp [(mem_itemRows hr).1]

theorem filter_itemRows_of_ne (h : id ≠ inv.id.text) :
    (itemRows inv).filter (fun r => r.invoiceId == id) = [] := by
  rw [List.filter_eq_nil_iff]
  intro r hr
  simp [(mem_itemRows hr).1, h.symm]

/-- The rows of items are numbered in their order. -/
theorem mergeSort_itemRows (inv : Invoice) :
    (itemRows inv).mergeSort (fun a b => decide (a.position ≤ b.position)) = itemRows inv := by
  apply List.mergeSort_of_pairwise
  rw [itemRows, List.pairwise_map]
  -- positions are counted from any number, for the induction on the items
  generalize 0 = k
  induction inv.items generalizing k with
  | nil => exact .nil
  | cons i items ih =>
      rw [List.zipIdx_cons, List.pairwise_cons]
      refine ⟨?_, ih (k + 1)⟩
      rintro ⟨j, n⟩ hj
      obtain ⟨hn, -, -⟩ := List.mem_zipIdx hj
      exact decide_eq_true (by omega : k ≤ n)

theorem itemOf_itemRow {i : LineItem} (invoiceId : String) (n : Nat) :
    itemOf i.unitPrice.currency.code (itemRow invoiceId i n) = .ok i := by
  have hprice : MoneyImage.toMoney ⟨i.unitPrice.amount.text, i.unitPrice.currency.code⟩ =
      .ok i.unitPrice := MoneyImage.toMoney_of i.unitPrice
  have hrate : TaxRateImage.toTaxRate ⟨i.taxRate.rate.text, i.taxRate.kind.name⟩ = .ok i.taxRate :=
    TaxRateImage.toTaxRate_of i.taxRate
  simp only [itemOf, itemRow, numeralOf_text i.quantity_readable, hprice, hrate, Except.ok_bind]
  exact i.of_texts _

theorem mapM_itemOf (h : ∀ i ∈ inv.items, i.unitPrice.currency = inv.currency) :
    (itemRows inv).mapM (itemOf inv.currency.code) = .ok inv.items := by
  rw [itemRows]
  generalize 0 = k
  revert h
  induction inv.items generalizing k with
  | nil => exact fun _ => rfl
  | cons i items ih =>
      intro h
      have hi := itemOf_itemRow (i := i) inv.id.text k
      rw [h i List.mem_cons_self] at hi
      have hrest := ih (k + 1) fun j hj => h j (List.mem_cons_of_mem _ hj)
      rw [List.zipIdx_cons, List.map_cons, List.mapM_cons, hi]
      simp only [Except.ok_bind, hrest]
      rfl

/-- The rows of an invoice are read back as the same invoice, with its moments in universal
time. -/
theorem toInvoice_rowOf (h : inv.OneCurrency)
    (hitems : tables.itemsOf inv.id.text = itemRows inv) :
    tables.toInvoice (rowOf inv inv.version) = .ok (inv.reread Moment.atUniversal) := by
  have hpaid : paidOf ((inv.paidAmount.map fun m => m.amount.text).map fun s =>
      ⟨s, inv.currency.code⟩) = .ok inv.paidAmount := by
    rw [← Invoice.paidOf_map inv.paidAmount]
    cases hm : inv.paidAmount with
    | none => rfl
    | some m => simp [MoneyImage.of, h.paid m hm]
  have hfrequency : givenName (fun s : String => s) (inv.frequency.map Frequency.name) =
      givenName Frequency.name inv.frequency := by
    cases inv.frequency <;> rfl
  -- moments are written without their offsets and read as universal time
  have htimes (o : Option Moment) :
      (o.map Moment.wallClock).map Moment.atUniversal = o.map Moment.atUniversal := by
    cases o <;> rfl
  have hrestore := Invoice.restore_texts h Moment.atUniversal (Fresh.following 0)
  simp only [Invoice.textFields, Invoice.textRecord, ← hfrequency] at hrestore
  simp only [toInvoice, rowOf, hitems, mapM_itemOf h.items, hpaid, htimes, Except.ok_bind]
  exact hrestore

/-! ## Records -/

/-- What the tables hold of one invoice. -/
structure Record where
  row : InvoiceRow
  items : List ItemRow

/-- The record under an identifier. -/
def recordAt? (tables : Tables) (id : String) : Option Record :=
  (tables.invoices.find? fun row => row.id == id).map fun row =>
    ⟨row, tables.items.filter fun r => r.invoiceId == id⟩

/-- The invoice of a record, as if the tables held nothing else. -/
def Record.read (r : Record) : Except StoreFailure Invoice :=
  refusing (toInvoice ⟨[r.row], r.items⟩ r.row)

theorem version?_eq (tables : Tables) (id : String) :
    tables.version? id = (tables.recordAt? id).map fun r => r.row.version := by
  rw [version?, recordAt?, Option.map_map]
  rfl

theorem recordAt?_eq_some {r : Record} (h : tables.recordAt? id = some r) :
    r.row ∈ tables.invoices ∧ r.row.id = id ∧
      r.items = tables.items.filter fun item => item.invoiceId == id := by
  obtain ⟨row, hrow, rfl⟩ := Option.map_eq_some_iff.1 h
  obtain ⟨hmem, hid⟩ := mem_of_find?_key hrow
  exact ⟨hmem, hid, rfl⟩

/-- Where there is a row, none is inserted. -/
theorem insert?_of_record {r : Record} (h : tables.recordAt? inv.id.text = some r) :
    tables.insert? inv = none := by
  obtain ⟨hrow, hid, -⟩ := recordAt?_eq_some h
  have hany : (tables.invoices.any fun row =>
      row.id == inv.id.text || row.number == inv.number.value) = true :=
    List.any_eq_true.2 ⟨r.row, hrow, by simp [hid]⟩
  simp [insert?, hany]

theorem toInvoice_congr {tables' : Tables} (h : tables.itemsOf row.id = tables'.itemsOf row.id) :
    tables.toInvoice row = tables'.toInvoice row := by
  rw [toInvoice, toInvoice, h]

/-- The tables hold nothing else that matters to an invoice. -/
theorem read_recordAt? {r : Record} (h : tables.recordAt? id = some r) :
    r.read = refusing (tables.toInvoice r.row) := by
  obtain ⟨-, hid, hitems⟩ := recordAt?_eq_some h
  have hrows : itemsOf ⟨[r.row], r.items⟩ r.row.id = tables.itemsOf r.row.id := by
    simp [itemsOf, hitems, hid]
  rw [Record.read, toInvoice_congr hrows]

/-! ## Writing -/

/-- What it means that an invoice has been written at a version: its row and its items are the ones
that are found under its identifier, and nothing else has changed. -/
structure Written (inv : Invoice) (version : Int) (tables after : Tables) : Prop where
  items : after.items =
    (tables.items.filter fun row => row.invoiceId != inv.id.text) ++ itemRows inv
  self : after.invoices.find? (fun row => row.id == inv.id.text) = some (rowOf inv version)
  others : ∀ id, id ≠ inv.id.text →
    after.invoices.find? (fun row => row.id == id) = tables.invoices.find? fun row => row.id == id
  rows : ∀ row ∈ after.invoices, row = rowOf inv version ∨ row ∈ tables.invoices
  nodup : (tables.invoices.map InvoiceRow.id).Nodup → (after.invoices.map InvoiceRow.id).Nodup

theorem Written.filter_items_self (h : Written inv version tables after) :
    (after.items.filter fun r => r.invoiceId == inv.id.text) = itemRows inv := by
  have hold : (tables.items.filter fun row => row.invoiceId != inv.id.text).filter
      (fun r => r.invoiceId == inv.id.text) = [] := by
    simp [List.filter_eq_nil_iff]
  rw [h.items, List.filter_append, hold, filter_itemRows_self, List.nil_append]

theorem filter_filter_items (hid : id ≠ other) (items : List ItemRow) :
    (items.filter fun r => r.invoiceId != other).filter (fun r => r.invoiceId == id) =
      items.filter fun r => r.invoiceId == id := by
  rw [List.filter_filter]
  refine List.filter_congr fun r _ => ?_
  by_cases hr : r.invoiceId = id <;> simp [hr, hid]

theorem Written.filter_items_of_ne (h : Written inv version tables after)
    (hid : id ≠ inv.id.text) :
    (after.items.filter fun r => r.invoiceId == id) =
      tables.items.filter fun r => r.invoiceId == id := by
  rw [h.items, List.filter_append, filter_filter_items hid, filter_itemRows_of_ne hid,
    List.append_nil]

theorem Written.recordAt?_self (h : Written inv version tables after) :
    after.recordAt? inv.id.text = some ⟨rowOf inv version, itemRows inv⟩ := by
  rw [recordAt?, h.self, h.filter_items_self]
  rfl

theorem Written.recordAt?_of_ne (h : Written inv version tables after) (hid : id ≠ inv.id.text) :
    after.recordAt? id = tables.recordAt? id := by
  rw [recordAt?, recordAt?, h.others id hid, h.filter_items_of_ne hid]

/-- The rows of invoices have their own identifiers and versions from 1, and no row of an item is
without an invoice. -/
structure Sound (tables : Tables) : Prop where
  nodup : (tables.invoices.map InvoiceRow.id).Nodup
  rows : ∀ row ∈ tables.invoices, row.id ≠ "" ∧ 1 ≤ row.version
  items : ∀ r ∈ tables.items, (tables.recordAt? r.invoiceId).isSome

theorem sound_empty : empty.Sound where
  nodup := List.nodup_nil
  rows _ hrow := absurd hrow List.not_mem_nil
  items _ hr := absurd hr List.not_mem_nil

theorem Sound.written (hsound : tables.Sound) (h : Written inv version tables after)
    (hpos : 1 ≤ version) : after.Sound := by
  refine ⟨h.nodup hsound.nodup, fun row hrow => ?_, fun r hr => ?_⟩
  · rcases h.rows row hrow with rfl | hrow
    · exact ⟨inv.id.text_ne, hpos⟩
    · exact hsound.rows row hrow
  · by_cases hid : r.invoiceId = inv.id.text
    · rw [hid, h.recordAt?_self]
      rfl
    · -- the rows of items of other invoices are the ones that were there
      rw [h.recordAt?_of_ne hid]
      rw [h.items] at hr
      rcases List.mem_append.1 hr with hr | hr
      · exact hsound.items r (List.mem_of_mem_filter hr)
      · exact absurd (mem_itemRows hr).1 hid

theorem recordAt?_eq_none_iff :
    tables.recordAt? id = none ↔ ∀ row ∈ tables.invoices, row.id ≠ id := by
  simp [recordAt?]

theorem Sound.filter_items_of_none (hsound : tables.Sound) (hnone : tables.recordAt? id = none) :
    (tables.items.filter fun row => row.invoiceId != id) = tables.items := by
  rw [List.filter_eq_self]
  intro r hr
  rw [bne_iff_ne]
  intro heq
  have hsome := hsound.items r hr
  rw [heq, hnone] at hsome
  cases hsome

/-- Rows are only inserted where there are none. -/
theorem Sound.written_insert (hsound : tables.Sound) (h : tables.insert? inv = some after) :
    Written inv 1 tables after ∧ tables.recordAt? inv.id.text = none := by
  unfold insert? at h
  extract_lets items at h
  split at h
  next => cases h
  next hfree =>
    simp only [Bool.or_eq_true, List.any_eq_true, not_or, not_exists, not_and, beq_iff_eq] at hfree
    have hnone : tables.recordAt? inv.id.text = none :=
      recordAt?_eq_none_iff.2 fun row hrow => (hfree.1 row hrow).1
    obtain rfl := Option.some.inj h
    refine ⟨⟨?_, ?_, ?_, ?_, ?_⟩, hnone⟩
    · -- without an invoice there are no rows of items to be replaced
      rw [hsound.filter_items_of_none hnone]
    · have hfind := Option.map_eq_none_iff.1 hnone
      simp [List.find?_append, hfind, rowOf]
    · intro id hid
      simp [List.find?_append, rowOf, hid.symm]
    · intro row hrow
      rcases List.mem_append.1 hrow with hrow | hrow
      · exact .inr hrow
      · exact .inl (List.mem_singleton.1 hrow)
    · intro hnodup
      rw [List.map_append, List.nodup_append]
      refine ⟨hnodup, List.nodup_singleton _, ?_⟩
      rintro a ha b hb rfl
      obtain ⟨row, hrow, hrowid⟩ := List.mem_map.1 ha
      obtain rfl := List.mem_singleton.1 hb
      exact (hfree.1 row hrow).1 hrowid

/-- Replacing a row does not change the identifier in its place. -/
theorem id_replaced (inv : Invoice) (version : Int) (row : InvoiceRow) :
    (if row.id == inv.id.text then rowOf inv version else row).id = row.id := by
  by_cases hrow : row.id = inv.id.text <;> simp [hrow, rowOf]

theorem find?_replaced (inv : Invoice) (version : Int) (rows : List InvoiceRow) (id : String) :
    (rows.map fun row => if row.id == inv.id.text then rowOf inv version else row).find?
        (fun row => row.id == id) =
      (rows.find? fun row => row.id == id).map fun row =>
        if row.id == inv.id.text then rowOf inv version else row := by
  rw [List.find?_map]
  congr 1
  refine congrArg (fun p => rows.find? p) (funext fun row => ?_)
  rw [Function.comp_apply, id_replaced]

theorem map_id_replaced (inv : Invoice) (version : Int) (rows : List InvoiceRow) :
    (rows.map fun row => if row.id == inv.id.text then rowOf inv version else row).map
      InvoiceRow.id = rows.map InvoiceRow.id := by
  rw [List.map_map]
  exact List.map_congr_left fun row _ => id_replaced inv version row

/-- Rows are only replaced where there are some. -/
theorem written_replace (h : tables.replace? inv = some after)
    (hstored : (tables.recordAt? inv.id.text).isSome) :
    Written inv (inv.version + 1) tables after := by
  unfold replace? at h
  extract_lets items at h
  split at h
  next => cases h
  next =>
    obtain rfl := Option.some.inj h
    refine ⟨rfl, ?_, ?_, ?_, ?_⟩
    · obtain ⟨r, hr⟩ := Option.isSome_iff_exists.1 hstored
      obtain ⟨row, hrow, -⟩ := Option.map_eq_some_iff.1 hr
      rw [find?_replaced, hrow, Option.map_some, if_pos (List.find?_some hrow)]
    · intro id hne
      rw [find?_replaced]
      cases hrow : tables.invoices.find? fun row => row.id == id with
      | none => rfl
      | some row =>
          simp [(mem_of_find?_key hrow).2, hne]
    · intro row hrow
      obtain ⟨old, hold, rfl⟩ := List.mem_map.1 hrow
      split
      · exact .inl rfl
      · exact .inr hold
    · intro hnodup
      rw [map_id_replaced]
      exact hnodup

/-! ## Calls -/

theorem reads_loadWhere (test : InvoiceRow → Bool) (tables : Tables) :
    Reads (loadWhere test) tables
      (refusing ((tables.invoices.filter test).mapM tables.toInvoice)) :=
  reads_ofResult _ tables

theorem Sound.reads_findById (h : tables.Sound) (id : String) :
    Reads (repository.findById id) tables (match tables.recordAt? id with
      | some r => r.read.map some
      | none => .ok none) := by
  have hread := (reads_loadWhere (fun row => row.id == id) tables).map List.head?
  rw [filter_key h.nodup] at hread
  cases hr : tables.recordAt? id with
  | none =>
      rw [Option.map_eq_none_iff.1 hr] at hread
      exact hread
  | some r =>
      have hload := read_recordAt? hr
      obtain ⟨row, hrow, rfl⟩ := Option.map_eq_some_iff.1 hr
      rw [hrow, Option.toList_some, List.mapM_cons, List.mapM_nil] at hread
      simp only [hload]
      cases hinv : tables.toInvoice row <;> rw [hinv] at hread <;> exact hread

/-- How a save ends, given the tables that it leads to unless a constraint is violated. -/
def committed (inv : Invoice) (tables : Tables) :
    Option Tables → Except StoreFailure Invoice × Tables
  | some after => (.ok { inv with version := inv.version + 1 }, after)
  | none => (.error (tables.violation inv), tables)

/-- A save inserts new invoices; it replaces others, if their version fits and is the stored
one. -/
theorem on_save (inv : Invoice) (tables : Tables) :
    (save inv).on tables =
      if inv.version = 0 then committed inv tables (tables.insert? inv)
      else if (fitsColumn inv.version && fitsColumn (inv.version + 1)) = false then
        (.error .versionTooLarge, tables)
      else if tables.version? inv.id.text ≠ some inv.version then
        (.error (.conflict inv.id.text inv.version (tables.version? inv.id.text)), tables)
      else committed inv tables (tables.replace? inv) := by
  rw [save, saving, Saving.on_copyOf_through, write, on_get_bind]
  by_cases hzero : inv.version = 0
  · rw [if_pos hzero, if_pos hzero]
    cases tables.insert? inv <;> rfl
  · rw [if_neg hzero, if_neg hzero]
    by_cases hfits : (fitsColumn inv.version && fitsColumn (inv.version + 1)) = true
    · by_cases hversion : tables.version? inv.id.text = some inv.version
      · cases tables.replace? inv <;> simp [hfits, hversion, commit, committed]
      · simp [hfits, hversion]
    · simp [hfits]

theorem committed_eq_ok {changed : Option Tables}
    (h : committed inv tables changed = (.ok saved, after)) :
    changed = some after ∧ saved = { inv with version := inv.version + 1 } := by
  cases changed with
  | none => cases (Prod.mk.inj h).1
  | some tables' =>
      obtain ⟨hsaved, rfl⟩ := Prod.mk.inj h
      exact ⟨rfl, (Except.ok.inj hsaved).symm⟩

theorem after_of_committed_error {e : StoreFailure} {changed : Option Tables}
    (h : committed inv tables changed = (.error e, after)) : after = tables := by
  cases changed with
  | none => exact (Prod.mk.inj h).2.symm
  | some tables' => cases (Prod.mk.inj h).1

/-- What a save comes to: an insertion or a replacement that may be committed, or a failure before
that. -/
theorem on_save_cases {r : Except StoreFailure Invoice}
    (h : (save inv).on tables = (r, after)) :
    (inv.version = 0 ∧ committed inv tables (tables.insert? inv) = (r, after)) ∨
      (tables.version? inv.id.text = some inv.version ∧
        committed inv tables (tables.replace? inv) = (r, after)) ∨
      (after = tables ∧ (r = .error .versionTooLarge ∨
        r = .error (.conflict inv.id.text inv.version (tables.version? inv.id.text)))) := by
  rw [on_save] at h
  split at h
  next hzero => exact .inl ⟨hzero, h⟩
  next =>
    split at h
    next =>
      obtain ⟨rfl, rfl⟩ := Prod.mk.inj h
      exact .inr (.inr ⟨rfl, .inl rfl⟩)
    next =>
      split at h
      next =>
        obtain ⟨rfl, rfl⟩ := Prod.mk.inj h
        exact .inr (.inr ⟨rfl, .inr rfl⟩)
      next hversion => exact .inr (.inl ⟨not_not.1 hversion, h⟩)

/-- What a save that succeeds has checked, and what it has written. -/
theorem Sound.on_save_eq_ok (hsound : tables.Sound)
    (h : (save inv).on tables = (.ok saved, after)) :
    saved = { inv with version := inv.version + 1 } ∧
      Written inv (inv.version + 1) tables after ∧
      ((tables.recordAt? inv.id.text = none ∧ inv.version = 0) ∨
        ∃ r, tables.recordAt? inv.id.text = some r ∧ r.row.version = inv.version) := by
  rcases on_save_cases h with ⟨hzero, h⟩ | ⟨hversion, h⟩ | ⟨-, h | h⟩
  · obtain ⟨hinsert, hsaved⟩ := committed_eq_ok h
    obtain ⟨hwritten, hnone⟩ := hsound.written_insert hinsert
    rw [hzero]
    exact ⟨hzero ▸ hsaved, hwritten, .inl ⟨hnone, rfl⟩⟩
  · obtain ⟨hreplace, hsaved⟩ := committed_eq_ok h
    rw [version?_eq] at hversion
    obtain ⟨r, hr, hrow⟩ := Option.map_eq_some_iff.1 hversion
    have hstored : (tables.recordAt? inv.id.text).isSome := by
      rw [hr]
      rfl
    exact ⟨hsaved, written_replace hreplace hstored, .inr ⟨r, hr, hrow⟩⟩
  · cases h
  · cases h

theorem after_of_save_error {e : StoreFailure}
    (h : (save inv).on tables = (.error e, after)) : after = tables := by
  rcases on_save_cases h with ⟨-, h⟩ | ⟨-, h⟩ | ⟨hafter, -⟩
  · exact after_of_committed_error h
  · exact after_of_committed_error h
  · exact hafter

/-! ## Laws -/

/-- The tables as a way of keeping invoices. -/
def keeping : Keeping Tables where
  repository := repository
  empty := empty
  Stored := Record
  storedAt := recordAt?
  version r := r.row.version
  read := Record.read
  times := Moment.atUniversal
  Sound := Sound

theorem saved_of_on_save (hsound : tables.Sound)
    (h : (save inv).on tables = (.ok saved, after)) : keeping.Saved inv tables saved after := by
  obtain ⟨rfl, hwritten, hcurrent⟩ := hsound.on_save_eq_ok h
  have hpos : 1 ≤ inv.version + 1 := by
    rcases hcurrent with ⟨-, hzero⟩ | ⟨r, hr, hversion⟩
    · omega
    · have hrow := (hsound.rows r.row (recordAt?_eq_some hr).1).2
      omega
  refine ⟨rfl, hcurrent, ⟨_, hwritten.recordAt?_self, rfl, fun hcurrency => ?_⟩,
    fun id hid => hwritten.recordAt?_of_ne hid, hsound.written hwritten hpos⟩
  -- the record that has been written is read on its own
  have hitems : itemsOf ⟨[rowOf inv (inv.version + 1)], itemRows inv⟩ inv.id.text =
      itemRows inv := by
    rw [itemsOf, filter_itemRows_self, mergeSort_itemRows]
  have hnext : ({ inv with version := inv.version + 1 } : Invoice).OneCurrency :=
    ⟨hcurrency.items, hcurrency.paid⟩
  have hread := toInvoice_rowOf hnext hitems
  exact refusing_eq_ok_iff.2 hread

theorem delete_after {r : Except StoreFailure Bool} (h : (delete id).on tables = (r, after)) :
    r = .ok (tables.recordAt? id).isSome ∧ after.recordAt? id = none ∧
      ∀ other, other ≠ id → after.recordAt? other = tables.recordAt? other := by
  obtain ⟨rfl, rfl⟩ := Prod.mk.inj h
  refine ⟨?_, ?_, ?_⟩
  · simp only [recordAt?, Option.isSome_map, List.isSome_find?]
  · rw [recordAt?_eq_none_iff]
    intro row hrow
    simpa using List.of_mem_filter hrow
  · intro other hother
    -- the rows that are left are found as before
    rw [recordAt?, recordAt?, find?_filter_key_of_ne hother, filter_filter_items hother]

theorem Sound.delete {r : Except StoreFailure Bool} (hsound : tables.Sound)
    (h : (delete id).on tables = (r, after)) : after.Sound := by
  have hothers := (delete_after h).2.2
  obtain ⟨-, rfl⟩ := Prod.mk.inj h
  refine ⟨hsound.nodup.sublist (List.filter_sublist.map _), fun row hrow => ?_, fun r hr => ?_⟩
  · exact hsound.rows row (List.mem_of_mem_filter hrow)
  · rw [hothers r.invoiceId (by simpa using List.of_mem_filter hr)]
    exact hsound.items r (List.mem_of_mem_filter hr)

theorem read_eq_ok {r : Record} (hne : r.row.id ≠ "") (h : r.read = .ok inv) :
    inv.id.text = r.row.id ∧ inv.version = r.row.version ∧ inv.Proper := by
  obtain ⟨items, -, h⟩ := Except.bind_eq_ok_iff.1 (refusing_eq_ok_iff.1 h)
  obtain ⟨paid, -, h⟩ := Except.bind_eq_ok_iff.1 h
  obtain ⟨hid, hversion⟩ := Invoice.id_version_of_restore h rfl hne
  exact ⟨hid, hversion, Invoice.proper_of_restore h⟩

theorem lawful : keeping.Lawful where
  times_times _ := rfl
  sound_empty := sound_empty
  version_pos := by
    intro tables id r hsound hr
    exact (Sound.rows hsound r.row (recordAt?_eq_some hr).1).2
  read := by
    intro tables id r inv hsound hr hread
    obtain ⟨hmem, hid, -⟩ := recordAt?_eq_some hr
    have hne := (Sound.rows hsound r.row hmem).1
    rw [← hid]
    exact read_eq_ok hne hread
  findById := by
    intro tables id hsound
    have h := Sound.reads_findById hsound id
    have hlookup : keeping.lookup (keeping.storedAt tables id) = match tables.recordAt? id with
        | some r => r.read.map some
        | none => .ok none := by
      show keeping.lookup (tables.recordAt? id) = _
      cases tables.recordAt? id <;> rfl
    rw [hlookup]
    exact h
  save := saved_of_on_save
  save_error := after_of_save_error
  delete := by
    intro tables after id r hsound h
    exact ⟨Sound.delete hsound h, delete_after h⟩

end Billing.Tables
