import Billing.Proofs.Item
import Billing.Proofs.Store.Tables

set_option autoImplicit false

/-! # Quantities and tax rates kept as texts

Both the snapshots and the tables keep quantities and tax rates as texts. Whatever is taken as a
number is read back from its text with its sign, digits and exponent
(`Given.ofText?_text_of_toDecimal`), so items come back with the quantity and the tax rate that they
were made with, trailing zeros included, and are written as the same texts again
(`LineItem.numbers_survive_as_texts`).
-/

namespace Billing

/-- A number that has been taken is read back from its text. -/
theorem Given.ofText?_text_of_toDecimal {g : Given} {field : String} {d : Decimal}
    (hrange : g.InRange) (h : g.toDecimal field = .ok d) :
    Numeral.ofText? d.text = some (.finite d) :=
  Numeral.ofText?_text (readable_of_toDecimal hrange h)

namespace TaxRate

variable {rate kind : Given} {t : TaxRate} {d : Decimal}

theorem toDecimal_of_eq_ok (h : TaxRate.of rate kind = .ok t) :
    rate.toDecimal "rate" = .ok t.rate := by
  obtain ⟨d, hd, h⟩ := Except.bind_eq_ok_iff.1 h
  split at h
  next =>
    obtain ⟨k, -, h⟩ := Except.bind_eq_ok_iff.1 h
    obtain rfl := Except.ok.inj h
    exact hd
  next => cases h

/-- A percentage is taken as it is if it is one; that it can be read is no condition. -/
theorem exists_of_iff (hrange : rate.InRange) (k : TaxKind) :
    (∃ t, TaxRate.of rate (.text k.name) = .ok t ∧ t.rate = d) ↔
      rate.toDecimal "rate" = .ok d ∧ Billing.isPercentage d = true := by
  constructor
  · rintro ⟨t, ht, rfl⟩
    exact ⟨toDecimal_of_eq_ok ht, t.isPercentage⟩
  · rintro ⟨hd, hpercentage⟩
    have hreadable := Given.readable_of_toDecimal hrange hd
    refine ⟨⟨d, k, hpercentage, hreadable⟩, ?_, rfl⟩
    simp [TaxRate.of, hd, hpercentage, hreadable, TaxKind.choose_name]

end TaxRate

namespace LineItem

variable {i j : LineItem}

/-- The same quantity and tax rate, with the same signs, digits and exponents. -/
def SameNumbers (i j : LineItem) : Prop := j.quantity = i.quantity ∧ j.taxRate = i.taxRate

/-- The rows of items do not say in which currency their prices are. -/
theorem exists_itemOf_itemRow (i : LineItem) (currency : Currency) (invoiceId : String) (n : Nat) :
    ∃ j, Tables.itemOf currency.code (Tables.itemRow invoiceId i n) = .ok j ∧ SameNumbers i j ∧
      Tables.itemRow invoiceId j n = Tables.itemRow invoiceId i n := by
  have hpositive : Money.isPositive ⟨i.unitPrice.amount, currency⟩ = true := i.unitPrice_pos
  obtain ⟨j, hj⟩ : ∃ j, j = { i with
    unitPrice := ⟨i.unitPrice.amount, currency⟩, unitPrice_pos := hpositive } := ⟨_, rfl⟩
  have hrow : Tables.itemRow invoiceId j n = Tables.itemRow invoiceId i n := by rw [hj]; rfl
  refine ⟨j, ?_, by rw [hj]; exact ⟨rfl, rfl⟩, hrow⟩
  have hread := Tables.itemOf_itemRow (i := j) invoiceId n
  rw [hrow] at hread
  rw [hj] at hread ⊢
  exact hread

/-- Every number that is taken from a given value is read back from its text. Quantities above zero
and percentages are taken from given values as they are, so the quantity and the tax rate of an item
are the ones that it was made with, also after it has been written as texts and read again, in a
snapshot or in a row; and then it is written as the same texts. -/
theorem numbers_survive_as_texts :
    (∀ (g : Given) (field : String) (d : Decimal), g.InRange → g.toDecimal field = .ok d →
      Numeral.ofText? d.text = some (.finite d)) ∧
    (∀ (g : Given) (d : Decimal), g.InRange →
      ((∃ q, quantityOf g = .ok q ∧ q.1 = d) ↔
        g.toDecimal "quantity" = .ok d ∧ d.isPositive = true) ∧
      ∀ k : TaxKind, (∃ t, TaxRate.of g (.text k.name) = .ok t ∧ t.rate = d) ↔
        g.toDecimal "rate" = .ok d ∧ isPercentage d = true) ∧
    ∀ (f : ItemFields) (new : Identifier) (i : LineItem), LineItem.of f new = .ok i →
      f.quantity.toDecimal "quantity" = .ok i.quantity ∧ i.taxRate = f.taxRate.getD .noTax ∧
      (∀ image, ItemImage.of i = .ok image → ∀ again, ∃ j,
        image.toItem again = .ok j ∧ SameNumbers i j ∧ ItemImage.of j = .ok image) ∧
      ∀ (currency : Currency) (invoiceId : String) (n : Nat), ∃ j,
        Tables.itemOf currency.code (Tables.itemRow invoiceId i n) = .ok j ∧ SameNumbers i j ∧
          Tables.itemRow invoiceId j n = Tables.itemRow invoiceId i n := by
  refine ⟨fun g field d hrange => Given.ofText?_text_of_toDecimal hrange,
    fun g d hrange => ⟨exists_quantityOf_iff hrange, TaxRate.exists_of_iff hrange⟩,
    fun f new i h => ?_⟩
  obtain ⟨hquantity, hrate⟩ := quantity_taxRate_of_eq_ok h
  refine ⟨hquantity, hrate, fun image himage again => ?_, i.exists_itemOf_itemRow⟩
  exact ⟨i, ItemImage.toItem_of himage again, ⟨rfl, rfl⟩, himage⟩

/-- An item of 2500 with a trailing zero, at a rate of minus zero with an exponent. -/
def sampleNumbers : ItemFields where
  description := .text "Work"
  quantity := .text "2.50E+3"
  unitPrice := .money ⟨⟨false, 1250, by decide⟩, .usd⟩
  taxRate := some ⟨⟨true, 0, 7⟩, .vat, by decide +kernel⟩

/-- Zeros and signs come back with them, whatever their notation. -/
theorem numbers_survive_as_texts_sample :
    Given.InRange (.decimal (.finite ⟨true, 0, 7⟩)) ∧
      Numeral.ofText? (Decimal.text ⟨true, 0, 7⟩) = some (.finite ⟨true, 0, 7⟩) ∧
      ∃ i image j, LineItem.of sampleNumbers (.forItem 0) = .ok i ∧
        ItemImage.of i = .ok image ∧ image.toItem (.forItem 1) = .ok j ∧
        j.quantity = ⟨false, 250, 1⟩ ∧ j.taxRate.rate = ⟨true, 0, 7⟩ ∧
        ItemImage.of j = .ok image := by
  obtain ⟨hread, -, hitems⟩ := numbers_survive_as_texts
  have hrange : Given.InRange (.decimal (.finite ⟨true, 0, 7⟩)) := by
    show Decimal.readable ⟨true, 0, 7⟩ = true
    decide +kernel
  refine ⟨hrange, hread _ "rate" _ hrange (Given.toDecimal_finite _), ?_⟩
  have hmade : (LineItem.of sampleNumbers (.forItem 0)).toOption.isSome = true := by
    decide +kernel
  obtain ⟨i, hi⟩ := Option.isSome_iff_exists.1 hmade
  have hi := Except.toOption_eq_some_iff.1 hi
  obtain ⟨hquantity, hrate, hsnapshot, -⟩ := hitems _ _ _ hi
  have himage : ((LineItem.of sampleNumbers (.forItem 0)).bind ItemImage.of).toOption.isSome =
      true := by decide +kernel
  rw [hi] at himage
  obtain ⟨image, himage⟩ := Option.isSome_iff_exists.1 himage
  have himage := Except.toOption_eq_some_iff.1 himage
  obtain ⟨j, hj, hsame, hagain⟩ := hsnapshot image himage (.forItem 1)
  have hnumber : sampleNumbers.quantity.toDecimal "quantity" = .ok ⟨false, 250, 1⟩ := by
    decide +kernel
  refine ⟨i, image, j, hi, himage, hj, ?_, ?_, hagain⟩
  · rw [hnumber] at hquantity
    rw [hsame.1, ← Except.ok.inj hquantity]
  · rw [hsame.2, hrate]
    rfl

end LineItem

end Billing
