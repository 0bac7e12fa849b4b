import Mathlib.Data.List.Nodup
import Billing.Invoice.Lifecycle
import Billing.Proofs.Given

set_option autoImplicit false

/-! # What an item is made of, and what an update leaves of it

An item takes its numbers as they are given (`LineItem.quantity_taxRate_of_eq_ok`). Items are
updated by making them again (`LineItem.of`). An update keeps the identifier, and the price stays in
its currency (`Invoice.patched_eq_ok`); in its list, the item keeps its place
(`Invoice.map_id_replaceItem`).
-/

namespace Billing

theorem Identifier.text_injective : Function.Injective Identifier.text := by
  rintro ⟨s, hs⟩ ⟨t, ht⟩ rfl
  rfl

namespace LineItem

variable {f : ItemFields} {new : Identifier} {i j : LineItem} {g : Given}

theorem quantity_above_zero (i : LineItem) : Decimal.zero.lt i.quantity = true := by
  have hpos := i.quantity_pos
  simp only [Decimal.isPositive, Decimal.isZero, Bool.and_eq_true, Bool.not_eq_eq_eq_not,
    Bool.not_true, decide_eq_false_iff_not] at hpos
  have hcmp : compare 0 i.quantity.coefficient = .lt := Nat.compare_eq_lt.2 (by omega)
  simp [Decimal.lt, Decimal.cmp, Decimal.isNegative, Decimal.zero, Decimal.cmpMagnitude,
    Decimal.isZero, hpos.1, hcmp]

theorem unitPrice_above_zero (i : LineItem) : 0 < i.unitPrice.amount.signedCents := by
  simpa [Money.isPositive, Amount.isPositive] using i.unitPrice_pos

/-- A unit price has no minus sign. -/
theorem signedCents_unitPrice (i : LineItem) :
    i.unitPrice.amount.signedCents = i.unitPrice.amount.cents := by
  have hpos := i.unitPrice_above_zero
  unfold Amount.signedCents at hpos ⊢
  split at hpos
  next => omega
  next hplus => rw [if_neg hplus]

theorem cents_pos (i : LineItem) : 0 < i.unitPrice.amount.cents := by
  have hpos := i.unitPrice_above_zero
  rw [signedCents_unitPrice] at hpos
  exact_mod_cast hpos

theorem toDecimal_of_quantityOf {q : { d : Decimal // d.isPositive = true ∧ d.readable = true }}
    (h : quantityOf g = .ok q) : g.toDecimal "quantity" = .ok q.1 := by
  obtain ⟨d, hd, h⟩ := Except.bind_eq_ok_iff.1 h
  split at h
  next =>
    obtain rfl := Except.ok.inj h
    exact hd
  next => cases h

theorem unitPriceOf_eq_ok {m : Money} {h : m.isPositive = true} (hg : unitPriceOf g = .ok ⟨m, h⟩) :
    g = .money m := by
  cases g <;> simp only [unitPriceOf] at hg
  case money m' =>
    split at hg
    · obtain rfl := congrArg Subtype.val (Except.ok.inj hg)
      rfl
    · cases hg
  -- nothing else than money is a price
  all_goals cases hg

/-- A quantity is taken as it is if it is above zero; that it can be read is no condition. -/
theorem exists_quantityOf_iff {d : Decimal} (hrange : g.InRange) :
    (∃ q, quantityOf g = .ok q ∧ q.1 = d) ↔
      g.toDecimal "quantity" = .ok d ∧ d.isPositive = true := by
  constructor
  · rintro ⟨⟨q, hpos, hreadable⟩, hq, rfl⟩
    exact ⟨toDecimal_of_quantityOf hq, hpos⟩
  · rintro ⟨hd, hpos⟩
    have hreadable := Given.readable_of_toDecimal hrange hd
    exact ⟨⟨d, hpos, hreadable⟩, by simp [quantityOf, hd, hpos, hreadable], rfl⟩

/-- Where the quantity and the tax rate of an item come from. -/
theorem quantity_taxRate_of_eq_ok (h : of f new = .ok i) :
    f.quantity.toDecimal "quantity" = .ok i.quantity ∧ i.taxRate = f.taxRate.getD .noTax := by
  simp only [of, Except.bind_eq_ok_iff] at h
  obtain ⟨_, -, quantity, hquantity, _, -, h⟩ := h
  obtain rfl := Except.ok.inj h
  exact ⟨toDecimal_of_quantityOf hquantity, rfl⟩

/-- Where the identifier and the price of an item come from. -/
theorem of_eq_ok (h : of f new = .ok i) :
    i.id = .ofGiven f.id new ∧ f.unitPrice = .money i.unitPrice := by
  simp only [of, Except.bind_eq_ok_iff] at h
  obtain ⟨_, -, _, -, ⟨price, hpos⟩, hprice, h⟩ := h
  obtain rfl := Except.ok.inj h
  exact ⟨rfl, unitPriceOf_eq_ok hprice⟩

theorem remake_eq_ok (hid : f.id = some i.id.text) (h : i.remake f = .ok j) :
    j.id = i.id ∧ f.unitPrice = .money j.unitPrice := by
  obtain ⟨hj, hprice⟩ := of_eq_ok h
  rw [hid, Identifier.ofGiven_text] at hj
  exact ⟨hj, hprice⟩

/-- The changes that do not touch the price. -/
theorem remake_keeps (hid : f.id = some i.id.text) (hprice : f.unitPrice = .money i.unitPrice)
    (h : i.remake f = .ok j) : j.id = i.id ∧ j.unitPrice = i.unitPrice := by
  obtain ⟨hj, hmoney⟩ := remake_eq_ok hid h
  rw [hprice] at hmoney
  exact ⟨hj, (Given.money.inj hmoney).symm⟩

end LineItem

namespace Invoice

variable {currency : Currency} {patch : ItemPatch} {item updated i : LineItem}
  {items : List LineItem}

theorem requireItemCurrency_eq_ok_iff :
    requireItemCurrency currency item = .ok () ↔ item.unitPrice.currency = currency := by
  unfold requireItemCurrency
  split <;> simp_all

theorem unlessMissing_eq_ok {g : Given} {change : Given → Except Failure LineItem}
    (h : unlessMissing g change item = .ok updated) : updated = item ∨ change g = .ok updated := by
  cases g <;> simp only [unlessMissing, Except.ok.injEq] at h
  case missing => exact .inl h.symm
  all_goals exact .inr h

/-- An update keeps the identifier, and the price stays in the currency of the invoice. -/
theorem patched_eq_ok (hcurrency : item.unitPrice.currency = currency)
    (h : patched currency patch item = .ok updated) :
    updated.id = item.id ∧ updated.unitPrice.currency = currency := by
  simp only [patched, Except.bind_eq_ok_iff] at h
  obtain ⟨described, hdescribed, counted, hcounted, priced, hpriced, h⟩ := h
  -- the description, the quantity and the price are changed one after the other
  have hd : described.id = item.id ∧ described.unitPrice.currency = currency := by
    rcases unlessMissing_eq_ok hdescribed with rfl | hd
    · exact ⟨rfl, hcurrency⟩
    · obtain ⟨hid, hprice⟩ := LineItem.remake_keeps rfl rfl hd
      exact ⟨hid, hprice ▸ hcurrency⟩
  have hc : counted.id = item.id ∧ counted.unitPrice.currency = currency := by
    rcases unlessMissing_eq_ok hcounted with rfl | hc
    · exact hd
    · obtain ⟨hid, hprice⟩ := LineItem.remake_keeps rfl rfl hc
      rw [hid, hprice]
      exact hd
  have hp : priced.id = item.id ∧ priced.unitPrice.currency = currency := by
    rcases unlessMissing_eq_ok hpriced with rfl | hp
    · exact hc
    · -- the new price is checked against the currency of the invoice
      obtain ⟨new, hnew, hp⟩ := Except.bind_eq_ok_iff.1 hp
      obtain ⟨_, hchecked, hp⟩ := Except.bind_eq_ok_iff.1 hp
      obtain rfl := Except.ok.inj hp
      exact ⟨(LineItem.remake_eq_ok rfl hnew).1.trans hc.1,
        requireItemCurrency_eq_ok_iff.1 hchecked⟩
  -- the tax rate comes last
  split at h
  · obtain ⟨hid, hprice⟩ := LineItem.remake_keeps rfl rfl h
    rw [hid, hprice]
    exact hp
  · obtain rfl := Except.ok.inj h
    exact hp

/-! ## The place in the list -/

theorem mem_replaceItem (h : i ∈ replaceItem updated items) : i = updated ∨ i ∈ items := by
  induction items with
  | nil => cases h
  | cons j items ih =>
      rw [replaceItem] at h
      -- only the first item with the identifier gives way
      split at h
      · exact (List.mem_cons.1 h).imp_right (List.mem_cons_of_mem _)
      · rcases List.mem_cons.1 h with rfl | h
        · exact .inr List.mem_cons_self
        · exact (ih h).imp_right (List.mem_cons_of_mem _)

theorem map_id_replaceItem (updated : LineItem) (items : List LineItem) :
    (replaceItem updated items).map LineItem.id = items.map LineItem.id := by
  induction items with
  | nil => rfl
  | cons j items ih =>
      rw [replaceItem]
      split
      next h => simp [eq_of_beq h]
      next => simp [ih]

end Invoice

end Billing
