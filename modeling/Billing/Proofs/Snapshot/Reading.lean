import Billing.Snapshot.Basic
import Billing.Proofs.Invoice.Number
import Billing.Proofs.Invoice.Reread

set_option autoImplicit false

/-! # Invoices are brought back from their images

Each part of an invoice is brought back from its image as it was: money (`MoneyImage.toMoney_of`),
tax rates (`TaxRateImage.toTaxRate_of`), items (`LineItem.of_texts`). An invoice as a whole is
brought back as `Invoice.reread`: its notes lose the blanks around them, and its moments may lose
something, depending on how they were stored.
-/

namespace Billing

/-! ## Names -/

theorem Given.choose?_givenName {α : Type} {field : String} {ofName? : String → Option α}
    {name : α → String} (h : ∀ a, ofName? (name a) = some a) (o : Option α) :
    (givenName name o).choose? field ofName? = .ok o := by
  cases o with
  | none => rfl
  | some a => exact choose?_name (h a)

theorem Currency.ofGiven_code (c : Currency) : Currency.ofGiven (.text c.code) = .ok c := by
  have hname : Text.strip c.code = c.code ∧ Text.isBlankText c.code = false := by
    cases c <;> decide
  exact Given.choose_name hname.1 hname.2 c.ofCode?_code

theorem TaxKind.choose_name (k : TaxKind) (field : String) :
    (Given.text k.name).choose field TaxKind.ofName? = .ok k := by
  have hname : Text.strip k.name = k.name ∧ Text.isBlankText k.name = false := by
    cases k <;> decide
  exact Given.choose_name hname.1 hname.2 k.ofName?_name

/-! ## Money, rates and items -/

theorem numeralOf_text {d : Decimal} (h : d.readable = true) :
    numeralOf d.text = .ok (.finite d) := by
  rw [numeralOf, Numeral.ofText?_text h]

namespace Amount

/-- An amount has two places also when it is written without trailing zeros. -/
theorem normalize_toDecimal (a : Amount) :
    ∃ d, a.toDecimal.normalize = .ok d ∧ -2 ≤ d.exponent := by
  have hround : Decimal.round a.negative a.cents 1 (-2) = .ok ⟨a.negative, a.cents, -2⟩ :=
    a.round_decimal
  simp only [Decimal.normalize, toDecimal, hround, Except.ok_bind]
  split
  · exact ⟨_, rfl, by simp⟩
  · exact ⟨_, rfl, by simp⟩

end Amount

theorem MoneyImage.toMoney_of (m : Money) : (MoneyImage.of m).toMoney = .ok m := by
  obtain ⟨d, hnormalize, hplaces⟩ := m.amount.normalize_toDecimal
  have hread : numeralOf m.amount.text = .ok (.finite m.amount.toDecimal) :=
    numeralOf_text m.amount.readable_toDecimal
  -- an amount without its trailing zeros has at most two places
  have hsignal : ofSignal m.amount.toDecimal.normalize = .ok d := ofSignal_eq_ok_iff.2 hnormalize
  simp only [MoneyImage.toMoney, MoneyImage.of, hread, Except.ok_bind, Money.of,
    Given.toDecimal_finite, hsignal, if_neg (not_lt.2 hplaces), Amount.round_toDecimal,
    Currency.ofGiven_code]
  rfl

theorem TaxRateImage.toTaxRate_of (t : TaxRate) : (TaxRateImage.of t).toTaxRate = .ok t := by
  simp only [TaxRateImage.toTaxRate, TaxRateImage.of, numeralOf_text t.readable, Except.ok_bind,
    TaxRate.of, Given.toDecimal_finite, dif_pos t.bounds, TaxKind.choose_name]
  rfl

/-- An item is made again from its own fields. -/
theorem LineItem.of_texts (i : LineItem) (new : Identifier) :
    LineItem.of {
      id := some i.id.text
      description := .text i.description.text
      quantity := .decimal (.finite i.quantity)
      unitPrice := .money i.unitPrice
      taxRate := some i.taxRate } new = .ok i := by
  simp [LineItem.of, Given.toLabel_text, quantityOf, Given.toDecimal_finite, i.quantity_pos,
    i.quantity_readable, unitPriceOf, i.unitPrice_pos, Identifier.ofGiven_text]

theorem ItemImage.toItem_of {i : LineItem} {image : ItemImage} (h : ItemImage.of i = .ok image)
    (new : Identifier) : image.toItem new = .ok i := by
  obtain ⟨total, -, himage⟩ := Except.bind_eq_ok_iff.1 h
  obtain rfl := Except.ok.inj himage
  simp only [ItemImage.toItem, numeralOf_text i.quantity_readable, MoneyImage.toMoney_of,
    TaxRateImage.toTaxRate_of, Except.ok_bind]
  exact i.of_texts new

theorem itemsOf_images {items : List LineItem} {images : List ItemImage}
    (h : items.mapM ItemImage.of = .ok images) (fresh : Fresh) :
    itemsOf images fresh = .ok items := by
  have hall := Except.mapM_eq_ok_iff.1 h
  -- the positions only matter for identifiers that are missing
  suffices hfrom : ∀ n, (images.zipIdx n).mapM (fun p => p.1.toItem (fresh.item p.2)) =
      .ok items from hfrom 0
  clear h
  induction hall with
  | nil => exact fun n => rfl
  | cons hi _ ih =>
      intro n
      rw [List.zipIdx_cons, List.mapM_cons]
      simp [ItemImage.toItem_of hi, ih]

/-! ## Invoices -/

namespace Invoice

/-- What an invoice is made from, as texts. -/
def textFields (inv : Invoice) : InvoiceFields where
  number := .text inv.number.value
  clientId := .text inv.clientId.text
  issuedBy := .text inv.issuedBy.text
  currency := .text inv.currency.code
  dueDate := .day inv.dueDate
  type := .text inv.type.name
  projectId := inv.projectId
  frequency := givenName Frequency.name inv.frequency
  notes := inv.notes

/-- The record of the life of an invoice, with its moments read back by `f`. -/
def textRecord (f : Moment → Moment) (inv : Invoice) : InvoiceRecord where
  id := some inv.id.text
  items := inv.items
  status := .text inv.status.name
  finalizedAt := inv.finalizedAt.map f
  sentAt := inv.sentAt.map f
  paidAt := inv.paidAt.map f
  voidedAt := inv.voidedAt.map f
  paidAmount := inv.paidAmount
  voidReason := inv.voidReason
  version := inv.version

theorem restore_texts {inv : Invoice} (h : inv.OneCurrency) (f : Moment → Moment)
    (fresh : Fresh) : restore inv.textFields (inv.textRecord f) fresh = .ok (inv.reread f) := by
  refine restore_eq_ok_iff.2 ⟨inv.number, inv.clientId, inv.issuedBy, inv.currency, inv.dueDate,
    inv.type, inv.frequency, some inv.status, inv.number.of_value, Given.toLabel_text _,
    Given.toLabel_text _, inv.currency.ofGiven_code, rfl,
    Given.choose?_name (InvoiceType.ofName?_name _),
    Given.choose?_givenName Frequency.ofName?_name _, h.items, h.paid,
    Given.choose?_name (Status.ofName?_name _), ?_⟩
  simp [reread, textRecord, textFields, Identifier.ofGiven_text]

theorem paidOf_map (paid : Option Money) : paidOf (paid.map MoneyImage.of) = .ok paid := by
  cases paid with
  | none => rfl
  | some m =>
      rw [Option.map_some, paidOf, MoneyImage.toMoney_of]
      rfl

end Invoice

namespace Snapshot

variable {inv : Invoice} {s : Snapshot}

/-- The snapshot of an invoice when the images of its items and its totals are known. -/
def ofImages (inv : Invoice) (items : List ItemImage) (totals : TotalsImage) : Snapshot where
  id := inv.id.text
  number := inv.number.value
  clientId := inv.clientId.text
  projectId := inv.projectId
  issuedBy := inv.issuedBy.text
  type := inv.type
  status := inv.status
  currency := inv.currency.code
  dueDate := inv.dueDate
  frequency := inv.frequency
  notes := inv.notes
  items := items
  totals := some totals
  finalizedAt := inv.finalizedAt
  sentAt := inv.sentAt
  paidAt := inv.paidAt
  voidedAt := inv.voidedAt
  paidAmount := inv.paidAmount.map .of
  voidReason := inv.voidReason
  version := inv.version

theorem of_eq_ok_iff : Snapshot.of inv = .ok s ↔ ∃ items totals,
    inv.items.mapM ItemImage.of = .ok items ∧ TotalsImage.of inv = .ok totals ∧
      s = ofImages inv items totals := by
  constructor
  · intro h
    obtain ⟨items, hitems, h⟩ := Except.bind_eq_ok_iff.1 h
    obtain ⟨totals, htotals, h⟩ := Except.bind_eq_ok_iff.1 h
    exact ⟨items, totals, hitems, htotals, (Except.ok.inj h).symm⟩
  · rintro ⟨items, totals, hitems, htotals, rfl⟩
    simp only [Snapshot.of, hitems, htotals, Except.ok_bind]
    rfl

/-- What a snapshot is called is what the invoice is called. -/
theorem id_number_version_of (h : Snapshot.of inv = .ok s) :
    s.id = inv.id.text ∧ s.number = inv.number.value ∧ s.version = inv.version := by
  obtain ⟨items, totals, -, -, rfl⟩ := of_eq_ok_iff.1 h
  exact ⟨rfl, rfl, rfl⟩

/-- A snapshot says nothing about the version but the version. -/
theorem of_version (h : Snapshot.of inv = .ok s) (version : Int) :
    Snapshot.of { inv with version } = .ok { s with version } := by
  obtain ⟨items, totals, hitems, htotals, rfl⟩ := of_eq_ok_iff.1 h
  exact of_eq_ok_iff.2 ⟨items, totals, hitems, htotals, rfl⟩

/-- Whatever is brought back from a snapshot has been made properly. -/
theorem proper_of_toInvoice {fresh : Fresh} (h : s.toInvoice fresh = .ok inv) : inv.Proper := by
  obtain ⟨items, -, h⟩ := Except.bind_eq_ok_iff.1 h
  obtain ⟨paid, -, h⟩ := Except.bind_eq_ok_iff.1 h
  exact Invoice.proper_of_restore h

/-- An invoice is brought back from its snapshot. -/
theorem toInvoice_of (h : Snapshot.of inv = .ok s) (hcurrency : inv.OneCurrency)
    (f : Moment → Moment) (fresh : Fresh) :
    Snapshot.toInvoice { s with
      finalizedAt := s.finalizedAt.map f
      sentAt := s.sentAt.map f
      paidAt := s.paidAt.map f
      voidedAt := s.voidedAt.map f } fresh = .ok (inv.reread f) := by
  obtain ⟨images, totals, himages, -, rfl⟩ := of_eq_ok_iff.1 h
  -- the totals are not read back but computed again
  simp only [Snapshot.toInvoice, ofImages, itemsOf_images himages, Invoice.paidOf_map,
    Except.ok_bind]
  exact Invoice.restore_texts hcurrency f fresh

end Snapshot

end Billing
