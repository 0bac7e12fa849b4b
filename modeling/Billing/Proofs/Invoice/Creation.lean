import Billing.Proofs.Given
import Billing.Proofs.Item

set_option autoImplicit false

/-! # Making an invoice

`Invoice.restore` succeeds exactly when each field can be taken as what it is
(`Invoice.restore_eq_ok_iff`), and the invoice then has the recorded state. A new invoice is a draft
in which nothing has happened (`Invoice.create_eq_ok`).
-/

namespace Billing

namespace Invoice

variable {f : InvoiceFields} {r : InvoiceRecord} {fresh : Fresh} {inv : Invoice} {today : Date}

theorem requireItemCurrencies_eq_ok_iff {currency : Currency} {items : List LineItem} :
    items.forM (requireItemCurrency currency) = .ok () ↔
      ∀ i ∈ items, i.unitPrice.currency = currency := by
  induction items with
  | nil =>
      exact iff_of_true rfl fun i hi => nomatch hi
  | cons i items ih =>
      -- the first item is checked before the others
      have hcons : (i :: items).forM (requireItemCurrency currency) =
          requireItemCurrency currency i >>= fun _ => items.forM (requireItemCurrency currency) :=
        rfl
      rw [hcons, Except.bind_eq_ok_iff, List.forall_mem_cons, ← ih]
      constructor
      · rintro ⟨_, hi, hitems⟩
        exact ⟨requireItemCurrency_eq_ok_iff.1 hi, hitems⟩
      · rintro ⟨hi, hitems⟩
        exact ⟨(), requireItemCurrency_eq_ok_iff.2 hi, hitems⟩

theorem requirePaidCurrency_eq_ok_iff {currency : Currency} {paid : Option Money} :
    requirePaidCurrency currency paid = .ok () ↔ ∀ m, paid = some m → m.currency = currency := by
  cases paid with
  | none => simp [requirePaidCurrency]
  | some m =>
      unfold requirePaidCurrency
      split <;> simp_all

/-- What can be read as a number is there. -/
theorem require_of_number {number : InvoiceNumber} (h : InvoiceNumber.of f.number = .ok number) :
    f.number.require "number" = .ok () := by
  cases hn : f.number with
  | missing =>
      rw [hn] at h
      cases h
  | _ => rfl

/-- An invoice is brought back exactly when every field can be taken as what it is. -/
theorem restore_eq_ok_iff :
    restore f r fresh = .ok inv ↔
      ∃ number clientId issuedBy currency dueDate type frequency status,
        InvoiceNumber.of f.number = .ok number ∧
        f.clientId.toLabel "clientId" = .ok clientId ∧
        f.issuedBy.toLabel "issuedBy" = .ok issuedBy ∧
        Currency.ofGiven f.currency = .ok currency ∧
        f.dueDate.date? = some dueDate ∧
        f.type.choose? "type" InvoiceType.ofName? = .ok (some type) ∧
        f.frequency.choose? "frequency" Frequency.ofName? = .ok frequency ∧
        (∀ i ∈ r.items, i.unitPrice.currency = currency) ∧
        (∀ m, r.paidAmount = some m → m.currency = currency) ∧
        r.status.choose? "status" Status.ofName? = .ok status ∧
        inv = {
          id := .ofGiven r.id fresh.invoice
          number, clientId, issuedBy, currency, dueDate, type, frequency
          projectId := f.projectId
          notes := notesOf f.notes
          items := r.items
          status := status.getD .draft
          finalizedAt := r.finalizedAt
          sentAt := r.sentAt
          paidAt := r.paidAt
          voidedAt := r.voidedAt
          paidAmount := r.paidAmount
          voidReason := r.voidReason
          version := r.version } := by
  constructor
  · intro h
    simp only [restore, Except.bind_eq_ok_iff] at h
    obtain ⟨_, -, number, hnumber, clientId, hclient, issuedBy, hissued, currency, hcurrency, h⟩ :=
      h
    split at h
    next dueDate hdue =>
      obtain ⟨type?, htype, h⟩ := Except.bind_eq_ok_iff.1 h
      split at h
      next type =>
        simp only [Except.bind_eq_ok_iff] at h
        obtain ⟨frequency, hfrequency, _, hitems, _, hpaid, status, hstatus, h⟩ := h
        obtain rfl := Except.ok.inj h
        exact ⟨number, clientId, issuedBy, currency, dueDate, type, frequency, status, hnumber,
          hclient, hissued, hcurrency, hdue, htype, hfrequency,
          requireItemCurrencies_eq_ok_iff.1 hitems, requirePaidCurrency_eq_ok_iff.1 hpaid,
          hstatus, rfl⟩
      next => cases h
    next => cases h
  · rintro ⟨number, clientId, issuedBy, currency, dueDate, type, frequency, status, hnumber,
      hclient, hissued, hcurrency, hdue, htype, hfrequency, hitems, hpaid, hstatus, rfl⟩
    simp only [restore, require_of_number hnumber, hnumber, hclient, hissued, hcurrency, hdue,
      htype, hfrequency, requireItemCurrencies_eq_ok_iff.2 hitems,
      requirePaidCurrency_eq_ok_iff.2 hpaid, hstatus, Except.ok_bind]
    rfl

/-- An invoice that is brought back without a record of its life is an empty draft. -/
theorem restore_new (h : restore f {} fresh = .ok inv) :
    inv.status = .draft ∧ inv.items = [] ∧ inv.finalizedAt = none ∧ inv.sentAt = none ∧
      inv.paidAt = none ∧ inv.voidedAt = none ∧ inv.paidAmount = none ∧ inv.voidReason = none := by
  obtain ⟨_, _, _, _, _, _, _, status, -, -, -, -, -, -, -, -, -, hstatus, rfl⟩ :=
    restore_eq_ok_iff.1 h
  -- without a record, the state is that of a draft
  have hdraft : (Given.text "DRAFT").choose? "status" Status.ofName? = .ok (some .draft) :=
    Given.choose?_name (Status.ofName?_name .draft)
  obtain rfl : some .draft = status := Except.ok.inj (hdraft.symm.trans hstatus)
  exact ⟨rfl, rfl, rfl, rfl, rfl, rfl, rfl, rfl⟩

/-- A new invoice is made like one that is brought back, and one that recurs has a frequency. -/
theorem create_eq_ok (h : create f today fresh = .ok inv) :
    restore f {} fresh = .ok inv ∧ (inv.type = .recurring → inv.frequency.isSome) := by
  unfold create at h
  split at h
  next due hdue =>
    obtain ⟨_, -, h⟩ := Except.bind_eq_ok_iff.1 h
    obtain ⟨type, htype, h⟩ := Except.bind_eq_ok_iff.1 h
    split at h
    next => cases h
    next hfrequency =>
      refine ⟨h, fun hrecurring => ?_⟩
      -- the type is read twice from the same field
      obtain ⟨_, _, _, _, _, type', frequency, _, -, -, -, -, -, htype', hfrequency', -, -, -,
        rfl⟩ := restore_eq_ok_iff.1 h
      obtain rfl : type' = .recurring := hrecurring
      obtain rfl := Except.ok.inj (htype.symm.trans htype')
      cases frequency with
      | some frequency => rfl
      | none =>
          have hmissing := Given.choose?_eq_ok_none hfrequency'
          exact (hfrequency (by rw [hmissing])).elim
  next => cases h

theorem version_of_create (h : create f today fresh = .ok inv) : inv.version = 0 := by
  obtain ⟨_, _, _, _, _, _, _, _, -, -, -, -, -, -, -, -, -, -, rfl⟩ :=
    restore_eq_ok_iff.1 (create_eq_ok h).1
  rfl

/-! ## An invoice to look at -/

/-- What `Invoice.sample` is made from. -/
def sampleFields : InvoiceFields where
  number := .text "INV-000001"
  clientId := .text "client"
  issuedBy := .text "issuer"
  currency := .text "USD"
  dueDate := .day ⟨2030, 1, 31, by decide⟩

/-- The day on which `Invoice.sample` is made. -/
def sampleDay : Date := ⟨2026, 1, 1, by decide⟩

/-- A draft that has just been made. -/
def sample : Invoice where
  id := (Fresh.following 0).invoice
  number := ⟨"INV-000001", by decide⟩
  clientId := ⟨"client", by decide, by decide⟩
  issuedBy := ⟨"issuer", by decide, by decide⟩
  currency := .usd
  dueDate := ⟨2030, 1, 31, by decide⟩
  type := .standard
  projectId := none
  frequency := none
  notes := none
  items := []
  status := .draft
  finalizedAt := none
  sentAt := none
  paidAt := none
  voidedAt := none
  paidAmount := none
  voidReason := none
  version := 0

theorem create_sample : create sampleFields sampleDay (.following 0) = .ok sample := by
  decide +kernel

end Invoice

/-- Two hours of work at 5.00 USD. -/
def LineItem.sample : LineItem where
  id := ⟨"work", by decide⟩
  description := ⟨"Work", by decide, by decide⟩
  quantity := ⟨false, 2, 0⟩
  unitPrice := ⟨⟨false, 500, by decide⟩, .usd⟩
  taxRate := .noTax
  quantity_pos := by decide
  quantity_readable := by decide +kernel
  unitPrice_pos := by decide

end Billing
