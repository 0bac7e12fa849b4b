import Billing.Proofs.Invoice.Totals
import Billing.Proofs.Store.Tables
import Billing.Proofs.Store.Shelf

set_option autoImplicit false

/-! # What the tables show

The tables show the invoices that their rows are read as (`Tables.shows`), as long as versions fit
into their column. They check nothing before they write, so the reason for which a write fails is
found afterwards (`Shown.on_insert`, `Shown.on_replace`).
-/

namespace Billing.Tables

open Access

variable {tables after : Tables} {shelf : Shelf} {inv i : Invoice} {row : InvoiceRow}
  {items rows : List ItemRow} {id : String}

/-! ## Keys of items -/

theorem keysDistinct_iff : keysDistinct rows = true ↔
    rows.Pairwise fun a b => ¬(b.invoiceId = a.invoiceId ∧ b.id = a.id) := by
  induction rows with
  | nil => exact iff_of_true rfl .nil
  | cons row rows ih =>
      rw [keysDistinct, Bool.and_eq_true, ih, List.pairwise_cons]
      refine and_congr_left' ?_
      simp [imp_iff_not_or]

theorem map_id_itemRows (inv : Invoice) :
    (itemRows inv).map ItemRow.id = inv.items.map fun i => i.id.text := by
  rw [itemRows, List.map_map]
  generalize 0 = k
  induction inv.items generalizing k with
  | nil => rfl
  | cons i items ih =>
      rw [List.zipIdx_cons, List.map_cons, List.map_cons, ih (k + 1)]
      rfl

/-- Keys stay distinct when the items of an invoice are replaced. -/
theorem keysDistinct_replace (h : keysDistinct items = true)
    (hids : (inv.items.map fun i => i.id.text).Nodup) :
    keysDistinct ((items.filter fun r => r.invoiceId != inv.id.text) ++ itemRows inv) = true := by
  rw [keysDistinct_iff] at h ⊢
  rw [List.pairwise_append]
  refine ⟨h.sublist List.filter_sublist, ?_, ?_⟩
  · rw [← map_id_itemRows, List.Nodup, List.pairwise_map] at hids
    exact hids.imp fun hne heq => hne heq.2.symm
  · -- the rows that are kept belong to other invoices
    intro a ha b hb heq
    have hne : a.invoiceId ≠ inv.id.text := by simpa using List.of_mem_filter ha
    exact hne (heq.1.symm.trans (mem_itemRows hb).1)

/-! ## One row -/

/-- A row shows an invoice if it is the row, among the rows of items, of one that is read as it. -/
def RowOf (items : List ItemRow) (i : Invoice) (row : InvoiceRow) : Prop :=
  ∃ saved : Invoice, saved.OneCurrency ∧ i = saved.reread .atUniversal ∧
    row = rowOf saved saved.version ∧
    (items.filter fun r => r.invoiceId == saved.id.text) = itemRows saved

namespace RowOf

/-- The columns by which rows are looked up are those of the invoice. -/
theorem columns (h : RowOf items i row) :
    row.id = i.id.text ∧ row.number = i.number.value ∧ row.clientId = i.clientId.text ∧
      row.issuedBy = i.issuedBy.text ∧ row.status = i.status.name ∧ row.dueDate = i.dueDate ∧
      row.version = i.version := by
  obtain ⟨saved, -, rfl, rfl, -⟩ := h
  exact ⟨rfl, rfl, rfl, rfl, rfl, rfl, rfl⟩

theorem toInvoice_eq (h : RowOf tables.items i row) : tables.toInvoice row = .ok i := by
  obtain ⟨saved, hcurrency, rfl, rfl, hitems⟩ := h
  refine toInvoice_rowOf hcurrency ?_
  rw [itemsOf, hitems, mergeSort_itemRows]

theorem congr {items' : List ItemRow} (h : RowOf items i row)
    (hitems : (items'.filter fun r => r.invoiceId == i.id.text) =
      items.filter fun r => r.invoiceId == i.id.text) : RowOf items' i row := by
  obtain ⟨saved, hcurrency, rfl, rfl, hrows⟩ := h
  exact ⟨saved, hcurrency, rfl, rfl, hitems.trans hrows⟩

/-- What has been written shows the invoice that is put on the shelf. -/
theorem written (h : Written inv (inv.version + 1) tables after) (hstorable : inv.Storable) :
    RowOf after.items (Shelf.shown inv) (rowOf inv (inv.version + 1)) := by
  obtain ⟨m, hbalance⟩ := hstorable.balance
  have hcurrency := Invoice.oneCurrency_of_balance hbalance
  exact ⟨{ inv with version := inv.version + 1 }, ⟨hcurrency.items, hcurrency.paid⟩, rfl, rfl,
    h.filter_items_self⟩

end RowOf

/-! ## Rows -/

/-- Tables show a shelf if their rows show the invoices on the shelf. -/
structure Shown (shelf : Shelf) (tables : Tables) : Prop where
  rows : List.Forall₂ (RowOf tables.items) shelf.invoices tables.invoices
  keys : keysDistinct tables.items = true
  sound : tables.Sound

theorem shown_empty : Shown .empty empty where
  rows := .nil
  keys := rfl
  sound := sound_empty

namespace Shown

theorem version (h : Shown shelf tables) (id : String) :
    tables.version? id = (shelf.stored? id).map Invoice.version := by
  have hfind := find?_of_forall₂ (p := fun i : Invoice => i.id.text == id)
    (q := fun row : InvoiceRow => row.id == id) h.rows fun i row hrow => by rw [hrow.columns.1]
  unfold version? Shelf.stored?
  rcases hfind with ⟨hi, hrow⟩ | ⟨i, row, hi, hrow, hshows⟩
  · rw [hi, hrow]
    rfl
  · obtain ⟨-, -, -, -, -, -, hversion⟩ := hshows.columns
    rw [hi, hrow, Option.map_some, Option.map_some, hversion]

theorem owner (h : Shown shelf tables) (number : String) :
    tables.owner? number =
      (shelf.invoices.find? fun i => i.number.value == number).map fun i => i.id.text := by
  have hfind := find?_of_forall₂ (p := fun i : Invoice => i.number.value == number)
    (q := fun row : InvoiceRow => row.number == number) h.rows
    fun i row hrow => by rw [hrow.columns.2.1]
  unfold owner?
  rcases hfind with ⟨hi, hrow⟩ | ⟨i, row, hi, hrow, hshows⟩
  · rw [hi, hrow]
    rfl
  · rw [hi, hrow, Option.map_some, Option.map_some, hshows.columns.1]

theorem isTaken (h : Shown shelf tables) (inv : Invoice) :
    (tables.invoices.any fun row => row.id != inv.id.text && row.number == inv.number.value) =
      shelf.isTaken inv := by
  refine (any_congr_of_forall₂ h.rows fun i row hrow => ?_).symm
  rw [hrow.columns.1, hrow.columns.2.1]

end Shown

/-! ## Writing -/

/-- What is not written still shows what it did. -/
theorem RowOf.of_written {version : Int} (h : RowOf tables.items i row)
    (hwritten : Written inv version tables after) (hid : i.id.text ≠ inv.id.text) :
    RowOf after.items i row :=
  h.congr (hwritten.filter_items_of_ne hid)

theorem forall₂_of_absent {new : InvoiceRow} {invoices : List Invoice} {rows : List InvoiceRow}
    {items' : List ItemRow} (h : List.Forall₂ (RowOf items) invoices rows)
    (hkeep : ∀ i row, RowOf items i row → i.id.text ≠ inv.id.text → RowOf items' i row)
    (habsent : ∀ i ∈ invoices, i.id.text ≠ inv.id.text) :
    List.Forall₂ (RowOf items') invoices
      (rows.map fun row => if row.id == inv.id.text then new else row) := by
  rw [List.forall₂_map_right_iff]
  refine ((List.forall₂_and_left _ _).2 ⟨habsent, h⟩).imp fun i row ⟨hid, hrow⟩ => ?_
  have hrowid : ¬(row.id == inv.id.text) = true := by
    rw [hrow.columns.1]
    simpa using hid
  rw [if_neg hrowid]
  exact hkeep i row hrow hid

/-- A row is replaced where its invoice is put. -/
theorem forall₂_replaced (inv : Invoice) {new : InvoiceRow} {invoices : List Invoice}
    {rows : List InvoiceRow} {items' : List ItemRow}
    (h : List.Forall₂ (RowOf items) invoices rows)
    (hkeep : ∀ i row, RowOf items i row → i.id.text ≠ inv.id.text → RowOf items' i row)
    (hnew : RowOf items' inv new) (hids : (invoices.map fun i => i.id.text).Nodup)
    (hmem : ∃ i ∈ invoices, i.id.text = inv.id.text) :
    List.Forall₂ (RowOf items') (Shelf.put inv invoices)
      (rows.map fun row => if row.id == inv.id.text then new else row) := by
  induction h with
  | nil =>
      obtain ⟨i, hi, -⟩ := hmem
      cases hi
  | @cons i row invoices rows hrow hrest ih =>
      rw [List.map_cons, List.nodup_cons] at hids
      rw [Shelf.put, Keyed.put, List.map_cons, hrow.columns.1]
      by_cases hid : i.id.text = inv.id.text
      · -- no other invoice has the identifier
        have habsent : ∀ j ∈ invoices, j.id.text ≠ inv.id.text := by
          intro j hj heq
          exact hids.1 (List.mem_map.2 ⟨j, hj, heq.trans hid.symm⟩)
        rw [if_pos (by simpa using hid), if_pos (by simpa using hid)]
        exact .cons hnew (forall₂_of_absent hrest hkeep habsent)
      · rw [if_neg (by simpa using hid), if_neg (by simpa using hid)]
        refine .cons (hkeep i row hrow hid) (ih hids.2 ?_)
        obtain ⟨j, hj, heq⟩ := hmem
        rcases List.mem_cons.1 hj with rfl | hj
        · exact absurd heq hid
        · exact ⟨j, hj, heq⟩

theorem absent_of_stored? (h : shelf.stored? id = none) : ∀ i ∈ shelf.invoices, i.id.text ≠ id := by
  intro i hi
  simpa using List.find?_eq_none.1 h i hi

namespace Shown

theorem recordAt?_eq_none (h : Shown shelf tables) (hnone : shelf.stored? id = none) :
    tables.recordAt? id = none := by
  have hversion := h.version id
  rw [hnone, version?_eq] at hversion
  exact Option.map_eq_none_iff.1 hversion

/-- A new invoice is inserted, unless its identifier or its number is in use. -/
theorem insert?_eq (h : Shown shelf tables) (hstorable : inv.Storable)
    (hnone : shelf.stored? inv.id.text = none) :
    tables.insert? inv = if shelf.isTaken inv then none
      else some ⟨tables.invoices ++ [rowOf inv 1], tables.items ++ itemRows inv⟩ := by
  have habsent := recordAt?_eq_none_iff.1 (h.recordAt?_eq_none hnone)
  -- as there is no row with the identifier, only the number can be in the way
  have hany : (tables.invoices.any fun row =>
      row.id == inv.id.text || row.number == inv.number.value) = shelf.isTaken inv := by
    rw [← h.isTaken, Bool.eq_iff_iff, List.any_eq_true, List.any_eq_true]
    refine exists_congr fun row => and_congr_right fun hrow => ?_
    simp [habsent row hrow]
  have hkeys : keysDistinct (tables.items ++ itemRows inv) = true := by
    have hreplace := keysDistinct_replace h.keys hstorable.items
    rw [h.sound.filter_items_of_none (h.recordAt?_eq_none hnone)] at hreplace
    exact hreplace
  simp only [insert?, hany, hkeys, Bool.not_true, Bool.or_false]

/-- Another invoice is replaced, unless its number is in use. -/
theorem replace?_eq (h : Shown shelf tables) (hstorable : inv.Storable) :
    tables.replace? inv = if shelf.isTaken inv then none
      else some ⟨tables.invoices.map fun row =>
          if row.id == inv.id.text then rowOf inv (inv.version + 1) else row,
        (tables.items.filter fun row => row.invoiceId != inv.id.text) ++ itemRows inv⟩ := by
  have hkeys := keysDistinct_replace h.keys hstorable.items
  simp only [replace?, h.isTaken, hkeys, Bool.not_true, Bool.or_false]

/-- What has been written at the next version is what is put on the shelf. -/
theorem written (h : Shown shelf tables) (hstorable : inv.Storable)
    (hwritten : Written inv (inv.version + 1) tables after) (hpos : 0 ≤ inv.version)
    (hrows : List.Forall₂ (RowOf after.items) (Shelf.put (Shelf.shown inv) shelf.invoices)
      after.invoices) : Shown ⟨Shelf.put (Shelf.shown inv) shelf.invoices⟩ after where
  rows := hrows
  keys := by
    rw [hwritten.items]
    exact keysDistinct_replace h.keys hstorable.items
  sound := h.sound.written hwritten (by omega)

theorem insert (h : Shown shelf tables) (hstorable : inv.Storable) (hzero : inv.version = 0)
    (hnone : shelf.stored? inv.id.text = none) (hinsert : tables.insert? inv = some after) :
    Shown ⟨Shelf.put (Shelf.shown inv) shelf.invoices⟩ after := by
  have hone : (1 : Int) = inv.version + 1 := by omega
  obtain ⟨hwritten, -⟩ := h.sound.written_insert hinsert
  rw [hone] at hwritten
  -- both the row and the invoice go to the end
  have habsent := absent_of_stored? hnone
  have hput : Shelf.put (Shelf.shown inv) shelf.invoices = shelf.invoices ++ [Shelf.shown inv] :=
    Keyed.put_of_absent habsent
  have hinvoices : after.invoices = tables.invoices ++ [rowOf inv (inv.version + 1)] := by
    rw [h.insert?_eq hstorable hnone] at hinsert
    split at hinsert
    next => cases hinsert
    next =>
      obtain rfl := Option.some.inj hinsert
      rw [← hone]
  refine h.written hstorable hwritten hzero.ge ?_
  rw [hput, hinvoices]
  refine List.rel_append ?_ (.cons (.written hwritten hstorable) .nil)
  exact ((List.forall₂_and_left _ _).2 ⟨habsent, h.rows⟩).imp fun i row ⟨hid, hrow⟩ =>
    hrow.of_written hwritten hid

theorem replace (h : Shown shelf tables) (horder : shelf.Orderly) (hstorable : inv.Storable)
    (hpos : 0 ≤ inv.version) (hstored : shelf.stored? inv.id.text = some i)
    (hreplace : tables.replace? inv = some after) :
    Shown ⟨Shelf.put (Shelf.shown inv) shelf.invoices⟩ after := by
  have hrecord : (tables.recordAt? inv.id.text).isSome := by
    have hversion := h.version inv.id.text
    rw [hstored, version?_eq] at hversion
    obtain ⟨r, hr, -⟩ := Option.map_eq_some_iff.1 hversion
    rw [hr]
    rfl
  have hwritten := written_replace hreplace hrecord
  refine h.written hstorable hwritten hpos ?_
  have hinvoices : after.invoices = tables.invoices.map fun row =>
      if row.id == inv.id.text then rowOf inv (inv.version + 1) else row := by
    rw [h.replace?_eq hstorable] at hreplace
    split at hreplace
    next => cases hreplace
    next =>
      obtain rfl := Option.some.inj hreplace
      rfl
  rw [hinvoices]
  exact forall₂_replaced (Shelf.shown inv) h.rows
    (fun i row hrow hid => hrow.of_written hwritten hid) (.written hwritten hstorable) horder.ids
    ⟨i, Shelf.mem_of_stored? hstored⟩

/-! ## Why a constraint is violated -/

theorem violation_of_stored (h : Shown shelf tables) (hzero : inv.version = 0)
    (hstored : shelf.stored? inv.id.text = some i) :
    tables.violation inv = .conflict inv.id.text inv.version (some i.version) := by
  have hversion := h.version inv.id.text
  rw [hstored, Option.map_some] at hversion
  simp [violation, hversion, hzero]

theorem violation_of_taken (h : Shown shelf tables) (horder : shelf.Orderly)
    (htaken : shelf.isTaken inv = true)
    (hnew : inv.version = 0 → shelf.stored? inv.id.text = none) :
    tables.violation inv = .numberTaken inv.number.value := by
  obtain ⟨j, hj, htest⟩ := List.any_eq_true.1 htaken
  obtain ⟨hid, hnumber⟩ : j.id.text ≠ inv.id.text ∧ j.number.value = inv.number.value := by
    simpa using htest
  -- the owner of the number is that other invoice
  have howner : tables.owner? inv.number.value = some j.id.text := by
    rw [h.owner]
    cases hfind : shelf.invoices.find? fun i => i.number.value == inv.number.value with
    | none => exact absurd hnumber (by simpa using List.find?_eq_none.1 hfind j hj)
    | some k =>
        obtain ⟨hkmem, hk⟩ := mem_of_find?_key hfind
        have heq : k = j :=
          List.inj_on_of_nodup_map horder.numbers hkmem hj (hk.trans hnumber.symm)
        rw [heq]
        rfl
  have hversion := h.version inv.id.text
  -- at version 0 the identifier is looked at first, and there is no such invoice
  by_cases hzero : inv.version = 0
  · rw [hnew hzero, Option.map_none] at hversion
    simp [violation, howner, hversion, hid]
  · simp [violation, howner, hzero, hid]

/-! ## Calls -/

theorem fitsColumn_of_storable (hstorable : inv.Storable) (hlimit : inv.version ≠ 2 ^ 63 - 1) :
    (fitsColumn inv.version && fitsColumn (inv.version + 1)) = true := by
  obtain ⟨hlower, hupper⟩ := hstorable.version
  have htwo : (twoTo 63 : Int) = 2 ^ 63 := by decide
  simp only [fitsColumn, htwo, Bool.and_eq_true, decide_eq_true_eq]
  omega

theorem insert?_of_stored (h : Shown shelf tables) (hstored : shelf.stored? inv.id.text = some i) :
    tables.insert? inv = none := by
  have hversion := h.version inv.id.text
  rw [hstored, version?_eq] at hversion
  obtain ⟨r, hr, -⟩ := Option.map_eq_some_iff.1 hversion
  exact insert?_of_record hr

theorem save_new (h : Shown shelf tables) (horder : shelf.Orderly) (hstorable : inv.Storable)
    (hzero : inv.version = 0) :
    (committed inv tables (tables.insert? inv)).1 = ((Shelf.save inv).on shelf).1 ∧
      Shown ((Shelf.save inv).on shelf).2 (committed inv tables (tables.insert? inv)).2 := by
  rw [Shelf.on_save]
  cases hstored : shelf.stored? inv.id.text with
  | some i =>
      have hpos := horder.versions i (Shelf.mem_of_stored? hstored).1
      have hstale : ((some i).map Invoice.version).getD 0 ≠ inv.version := by
        rw [Option.map_some, Option.getD_some]
        omega
      rw [if_pos hstale, h.insert?_of_stored hstored, committed,
        h.violation_of_stored hzero hstored]
      exact ⟨rfl, h⟩
  | none =>
      rw [if_neg (by simp [hzero])]
      by_cases htaken : shelf.isTaken inv = true
      · have hviolation := h.violation_of_taken horder htaken fun _ => hstored
        rw [if_pos htaken, h.insert?_eq hstorable hstored, if_pos htaken, committed, hviolation]
        exact ⟨rfl, h⟩
      · have hinsert := h.insert?_eq hstorable hstored
        rw [if_neg htaken] at hinsert
        rw [if_neg htaken, hinsert]
        exact ⟨rfl, h.insert hstorable hzero hstored hinsert⟩

theorem save_again (h : Shown shelf tables) (horder : shelf.Orderly) (hstorable : inv.Storable)
    (hzero : inv.version ≠ 0) (hstored : shelf.stored? inv.id.text = some i)
    (hversion : i.version = inv.version) :
    (committed inv tables (tables.replace? inv)).1 = ((Shelf.save inv).on shelf).1 ∧
      Shown ((Shelf.save inv).on shelf).2 (committed inv tables (tables.replace? inv)).2 := by
  have hpos := horder.versions i (Shelf.mem_of_stored? hstored).1
  rw [Shelf.on_save, hstored, if_neg (by simp [hversion])]
  by_cases htaken : shelf.isTaken inv = true
  · have hviolation := h.violation_of_taken horder htaken fun h => absurd h hzero
    rw [if_pos htaken, h.replace?_eq hstorable, if_pos htaken, committed, hviolation]
    exact ⟨rfl, h⟩
  · have hreplace := h.replace?_eq hstorable
    rw [if_neg htaken] at hreplace
    rw [if_neg htaken, hreplace]
    exact ⟨rfl, h.replace horder hstorable (by omega) hstored hreplace⟩

theorem save (h : Shown shelf tables) (horder : shelf.Orderly) (hstorable : inv.Storable)
    (hlimit : inv.version ≠ 2 ^ 63 - 1) :
    (save inv).Matches Shown tables (Shelf.repository.save inv) shelf := by
  show (Tables.save inv).Matches Shown tables (Shelf.save inv) shelf
  rw [Access.Matches, on_save, h.version]
  by_cases hzero : inv.version = 0
  · rw [if_pos hzero]
    exact h.save_new horder hstorable hzero
  · rw [if_neg hzero, if_neg (by simp [fitsColumn_of_storable hstorable hlimit])]
    -- an update that finds no row at the version is a conflict
    by_cases hcurrent : (shelf.stored? inv.id.text).map Invoice.version = some inv.version
    · obtain ⟨i, hstored, hversion⟩ := Option.map_eq_some_iff.1 hcurrent
      rw [if_neg (by simpa using hcurrent)]
      exact h.save_again horder hstorable hzero hstored hversion
    · have hstale : ((shelf.stored? inv.id.text).map Invoice.version).getD 0 ≠ inv.version := by
        cases hstored : shelf.stored? inv.id.text with
        | none => exact Ne.symm hzero
        | some i =>
            rw [hstored, Option.map_some] at hcurrent
            exact fun heq => hcurrent (congrArg some heq)
      rw [if_pos hcurrent, Shelf.on_save, if_pos hstale]
      exact ⟨rfl, h⟩

theorem mapM_toInvoice {invoices : List Invoice} {rows : List InvoiceRow}
    (h : List.Forall₂ (RowOf tables.items) invoices rows) :
    rows.mapM tables.toInvoice = .ok invoices :=
  Except.mapM_eq_ok_iff.2 (h.imp fun _ _ hrow => hrow.toInvoice_eq).flip

theorem loadWhere (h : Shown shelf tables) (p : Invoice → Bool) (test : InvoiceRow → Bool)
    (hp : ∀ i row, RowOf tables.items i row → p i = test row) :
    Reads (loadWhere test) tables (.ok (shelf.invoices.filter p)) := by
  have hread := reads_loadWhere test tables
  rw [mapM_toInvoice ((filter_of_forall₂ h.rows hp).imp fun _ _ hrow => hrow.1)] at hread
  exact hread

theorem findById (h : Shown shelf tables) (id : String) :
    Reads (repository.findById id) tables (.ok (shelf.stored? id)) := by
  have hread := (h.loadWhere (fun i => i.id.text == id) (fun row => row.id == id)
    fun i row hrow => by rw [hrow.columns.1]).map List.head?
  rw [Shelf.stored?, ← List.head?_filter]
  exact hread

theorem findByNumber (h : Shown shelf tables) (number : String) :
    Reads (repository.findByNumber number) tables
      (.ok (shelf.invoices.find? fun i => i.number.value == number)) := by
  have hread := (h.loadWhere (fun i => i.number.value == number)
    (fun row => row.number == number) fun i row hrow => by rw [hrow.columns.2.1]).map
      List.head?
  rw [← List.head?_filter]
  exact hread

theorem isPayable_eq (h : RowOf items i row) : isPayable row = i.status.isPayable := by
  obtain ⟨-, -, -, -, hstatus, -⟩ := h.columns
  rw [isPayable, hstatus, Status.name_beq_name, Status.name_beq_name]
  rfl

/-- Sorting rows by their due dates sorts their invoices. -/
theorem findOverdue (h : Shown shelf tables) (today : Date) :
    Reads (findOverdue today) tables (.ok
      ((shelf.invoices.filter fun i => i.isOverdue today).mergeSort
        fun a b => a.dueDate.le b.dueDate)) := by
  have hrows := filter_of_forall₂ (p := fun i : Invoice => i.isOverdue today)
    (q := fun row : InvoiceRow => isPayable row && row.dueDate.lt today) h.rows
    fun i row hrow => by
      obtain ⟨-, -, -, -, -, hdue, -⟩ := hrow.columns
      rw [isPayable_eq hrow, hdue, Invoice.isOverdue]
  have hsorted := mergeSort_of_forall₂ (fun a b : Invoice => a.dueDate.le b.dueDate)
    (fun a b : InvoiceRow => a.dueDate.le b.dueDate) hrows fun i row j row' hi hj => by
      obtain ⟨-, -, -, -, -, hdue, -⟩ := hi.1.columns
      obtain ⟨-, -, -, -, -, hdue', -⟩ := hj.1.columns
      rw [hdue, hdue']
  -- the rows are sorted before they are read
  have hread : Reads (Tables.findOverdue today) tables _ := reads_ofResult _ tables
  rw [mapM_toInvoice (hsorted.imp fun _ _ hrow => hrow.1)] at hread
  exact hread

theorem delete (h : Shown shelf tables) (id : String) :
    (delete id).Matches Shown tables (Shelf.repository.delete id) shelf := by
  have hfound : (tables.recordAt? id).isSome = (shelf.stored? id).isSome := by
    have hversion := congrArg Option.isSome (h.version id)
    rwa [version?_eq, Option.isSome_map, Option.isSome_map] at hversion
  have hdelete : (Tables.delete id).on tables = (.ok (shelf.stored? id).isSome,
      ⟨tables.invoices.filter fun row => row.id != id,
        tables.items.filter fun row => row.invoiceId != id⟩) := by
    rw [← hfound, ← Except.ok.inj (delete_after (rfl : (Tables.delete id).on tables = _)).1]
    rfl
  show (Tables.delete id).Matches Shown tables (Shelf.delete id) shelf
  rw [Access.Matches, hdelete]
  refine ⟨rfl, ?_, ?_, h.sound.delete hdelete⟩
  · refine (filter_of_forall₂ h.rows fun i row hrow => ?_).imp fun i row hleft => ?_
    · rw [hrow.columns.1]
    · exact hleft.1.congr (filter_filter_items (by simpa using hleft.2) tables.items)
  · exact keysDistinct_iff.2 ((keysDistinct_iff.1 h.keys).sublist List.filter_sublist)

end Shown

/-- The tables answer like the shelf of the invoices in them. -/
theorem shows : repository.Shows Shown where
  save h horder hstorable hlimit := h.save horder hstorable hlimit
  findById id h := (h.findById id).matches rfl h
  findByNumber number h := (h.findByNumber number).matches rfl h
  findByClient client h := by
    refine (h.loadWhere (fun i => i.clientId.text == client) _
      fun i row hrow => ?_).matches rfl h
    rw [hrow.columns.2.2.1]
  findByStatus status h := by
    refine (h.loadWhere (fun i => i.status == status) _ fun i row hrow => ?_).matches rfl h
    rw [hrow.columns.2.2.2.2.1, Status.name_beq_name]
  findOverdue today h := (h.findOverdue today).matches rfl h
  findDraftsBy user h := by
    refine (h.loadWhere (fun i => i.issuedBy.text == user && i.status == .draft) _
      fun i row hrow => ?_).matches rfl h
    rw [hrow.columns.2.2.2.1, hrow.columns.2.2.2.2.1, Status.name_beq_name]
  existsNumber number h := by
    have hany := any_congr_of_forall₂ (p := fun i : Invoice => i.number.value == number)
      (q := fun row : InvoiceRow => row.number == number) h.rows
      fun i row hrow => by rw [hrow.columns.2.1]
    refine ⟨?_, h⟩
    exact congrArg Except.ok hany.symm
  delete id h _ := h.delete id

end Billing.Tables
