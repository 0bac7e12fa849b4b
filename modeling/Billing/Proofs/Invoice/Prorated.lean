import Mathlib.Data.List.Nodup
import Billing.Proofs.Invoice.Currency
import Billing.Proofs.Invoice.Proration
import Billing.Proofs.Snapshot.Reading

set_option autoImplicit false

/-! # An invoice that has been checked can be prorated

The check makes the items of the new invoice once, with identifiers that nobody keeps. Which
identifiers are new does not matter to them, so they can be made again, and they all go into the new
invoice, whatever its number is: nothing fails any more (`Invoice.prorate_eq`).
-/

namespace Billing

namespace LineItem

variable {f : ItemFields}

/-- An item that is given no identifier is the same under any new one, and fails alike. -/
theorem of_rename (hid : f.id = none) (new other : Identifier) :
    of f other = (of f new).map fun i => { i with id := other } := by
  simp only [of, hid]
  cases f.description.toLabel "description" with
  | error e => rfl
  | ok description =>
      cases quantityOf f.quantity with
      | error e => rfl
      | ok quantity => cases unitPriceOf f.unitPrice <;> rfl

end LineItem

namespace Invoice

variable {inv after : Invoice} {item prorated : LineItem} {items : List LineItem}
  {start finish : Given} {today : Date} {fresh : Fresh} {number : InvoiceNumber} {factor : Decimal}
  {new : Identifier}

/-! ## The items -/

theorem proratedItem_rename (factor : Decimal) (item : LineItem) (new other : Identifier) :
    proratedItem factor item other =
      (proratedItem factor item new).map fun i => { i with id := other } := by
  simp only [proratedItem]
  cases item.unitPrice.scale factor with
  | error e => rfl
  | ok price =>
      rw [Except.ok_bind, Except.ok_bind]
      exact LineItem.of_rename rfl new other

/-- A prorated item has the identifier that is new, and the price of the item is multiplied. -/
theorem proratedItem_eq_ok (h : proratedItem factor item new = .ok prorated) :
    prorated.id = new ∧ item.unitPrice.scale factor = .ok prorated.unitPrice := by
  obtain ⟨price, hscale, hof⟩ := Except.bind_eq_ok_iff.1 h
  obtain ⟨hid, hprice⟩ := LineItem.of_eq_ok hof
  exact ⟨hid, Given.money.inj hprice ▸ hscale⟩

theorem currency_of_proratedItem (h : proratedItem factor item new = .ok prorated) :
    prorated.unitPrice.currency = item.unitPrice.currency :=
  (Money.scale_eq_ok_iff.1 (proratedItem_eq_ok h).2).1

/-- The part of a billing period that lies between two ends, as a factor of the prices. -/
def prorationFactor (inv : Invoice) (start finish : Given) : Except Failure Decimal := do
  unless inv.type = .recurring do throw (.broken .prorateRecurring)
  let span ← spanOf start finish
  if span ≤ 0 then throw (.broken .periodInOrder)
  ofSignal ((Decimal.ofInt (wholeDays span)).div referenceDays)

theorem prorationFactor_eq_ok_iff :
    inv.prorationFactor start finish = .ok factor ↔
      inv.type = .recurring ∧ ∃ span, spanOf start finish = .ok span ∧ 0 < span ∧
        (Decimal.ofInt (wholeDays span)).div referenceDays = .ok factor := by
  unfold prorationFactor
  by_cases hrecurring : inv.type = .recurring
  case neg => simp [hrecurring]
  simp only [hrecurring, if_true, true_and]
  cases hspan : spanOf start finish with
  | error e => simp
  | ok span =>
      by_cases hlater : span ≤ 0
      · simp [hlater, not_lt.2 hlater]
      · simp [hlater, not_le.1 hlater, ofSignal_eq_ok_iff]

/-- Only the identifiers of the items depend on what is new. -/
theorem proratedItems_eq (inv : Invoice) (start finish : Given) (fresh : Fresh) :
    inv.proratedItems start finish fresh =
      inv.prorationFactor start finish >>= fun factor =>
        inv.items.zipIdx.mapM fun p => proratedItem factor p.1 (fresh.item p.2) := by
  unfold proratedItems prorationFactor
  by_cases hrecurring : inv.type = .recurring
  case neg => simp [hrecurring]
  simp only [hrecurring, if_true, bind_assoc]
  cases spanOf start finish with
  | error e => rfl
  | ok span => by_cases hlater : span ≤ 0 <;> simp [hlater]

/-- Whether the items can be made, and what is wrong if not, is the same for any new
identifiers. -/
theorem outcome_proratedItems (inv : Invoice) (start finish : Given) (fresh other : Fresh) :
    (inv.proratedItems start finish fresh).outcome =
      (inv.proratedItems start finish other).outcome := by
  rw [proratedItems_eq, proratedItems_eq]
  cases inv.prorationFactor start finish with
  | error e => rw [Except.error_bind, Except.error_bind]
  | ok factor =>
      have hitem : ∀ p ∈ inv.items.zipIdx, (proratedItem factor p.1 (fresh.item p.2)).outcome =
          (proratedItem factor p.1 (other.item p.2)).outcome := by
        intro p _
        rw [proratedItem_rename factor p.1 (other.item p.2), Except.outcome_map]
      rw [Except.ok_bind, Except.ok_bind]
      exact Except.outcome_mapM_congr hitem

/-- The items in their order, each made from the one of the source at its place. -/
theorem forall₂_of_proratedItems (h : inv.proratedItems start finish fresh = .ok items) :
    ∃ factor, inv.prorationFactor start finish = .ok factor ∧
      List.Forall₂ (fun p i => proratedItem factor p.1 (fresh.item p.2) = .ok i) inv.items.zipIdx
        items := by
  rw [proratedItems_eq] at h
  obtain ⟨factor, hfactor, h⟩ := Except.bind_eq_ok_iff.1 h
  exact ⟨factor, hfactor, Except.mapM_eq_ok_iff.1 h⟩

theorem map_id_of_proratedItems (h : inv.proratedItems start finish fresh = .ok items) :
    items.map LineItem.id = (List.range inv.items.length).map fresh.item := by
  rw [proratedItems_eq] at h
  obtain ⟨factor, -, h⟩ := Except.bind_eq_ok_iff.1 h
  rw [Except.map_eq_of_mapM h fun p i hi => (proratedItem_eq_ok hi).1, List.range_eq_range',
    ← List.zipIdx_map_snd 0 inv.items, List.map_map]
  rfl

/-- The identifiers are those of different places. -/
theorem ids_of_proratedItems (h : inv.proratedItems start finish fresh = .ok items) :
    (items.map LineItem.id).Nodup := by
  rw [map_id_of_proratedItems h]
  exact List.nodup_range.map fun m n => fresh.item_inj m n

theorem currencies_of_proratedItems (hcurrency : inv.OneCurrency)
    (h : inv.proratedItems start finish fresh = .ok items) :
    ∀ i ∈ items, i.unitPrice.currency = inv.currency := by
  rw [proratedItems_eq] at h
  obtain ⟨factor, -, h⟩ := Except.bind_eq_ok_iff.1 h
  have hmap := Except.map_eq_of_mapM h fun p i hi => currency_of_proratedItem hi
  intro i hi
  have hmem := List.mem_map_of_mem (f := fun i : LineItem => i.unitPrice.currency) hi
  rw [hmap] at hmem
  obtain ⟨p, hp, heq⟩ := List.mem_map.1 hmem
  rw [← heq]
  exact hcurrency.items p.1 (List.fst_mem_of_mem_zipIdx hp)

/-! ## The new invoice -/

/-- The draft to which the prorated items are added. -/
def prorationDraft (inv : Invoice) (start finish : Given) (number : InvoiceNumber)
    (fresh : Fresh) : Invoice where
  id := fresh.invoice
  number := number
  clientId := inv.clientId
  issuedBy := inv.issuedBy
  currency := inv.currency
  dueDate := inv.dueDate
  type := .standard
  projectId := inv.projectId
  frequency := none
  notes := notesOf (some (periodText start finish))
  items := []
  status := .draft
  finalizedAt := none
  sentAt := none
  paidAt := none
  voidedAt := none
  paidAmount := none
  voidReason := none
  version := 0

theorem create_prorationFields (hdue : requireFuture inv.dueDate today = .ok ())
    (start finish : Given) (number : InvoiceNumber) (fresh : Fresh) :
    create (inv.prorationFields start finish number) today fresh =
      .ok (inv.prorationDraft start finish number fresh) := by
  have hstandard : (Given.text "STANDARD").choose? "type" InvoiceType.ofName? =
      .ok (some .standard) := Given.choose?_name (InvoiceType.ofName?_name .standard)
  have hrestore : restore (inv.prorationFields start finish number) {} fresh =
      .ok (inv.prorationDraft start finish number fresh) :=
    restore_eq_ok_iff.2 ⟨number, inv.clientId, inv.issuedBy, inv.currency, inv.dueDate,
      .standard, none, some .draft, number.of_value, Given.toLabel_text inv.clientId,
      Given.toLabel_text inv.issuedBy, inv.currency.ofGiven_code, rfl, hstandard, rfl,
      List.forall_mem_nil _, fun m hm => (nomatch hm),
      Given.choose?_name (Status.ofName?_name .draft), rfl⟩
  rw [← hrestore]
  simp only [create, prorationFields, Given.date?, hdue, hstandard, Except.ok_bind]

/-- Items go into a draft if they are in its currency and no two have the same identifier. -/
theorem withItems_eq_ok (draft : inv.status = .draft)
    (currency : ∀ i ∈ items, i.unitPrice.currency = inv.currency)
    (distinct : ((inv.items ++ items).map LineItem.id).Nodup) :
    inv.withItems items = .ok { inv with items := inv.items ++ items } := by
  induction items generalizing inv with
  | nil => simp [withItems]
  | cons item items ih =>
      have hnew : (inv.items.any fun i => i.id == item.id) = false := by
        rw [List.any_eq_false]
        intro i hi heq
        rw [List.map_append, List.nodup_append] at distinct
        exact distinct.2.2 i.id (List.mem_map_of_mem hi) item.id List.mem_cons_self
          (eq_of_beq heq)
      have hadd : (addItem item).result inv = .ok { inv with items := inv.items ++ [item] } := by
        have hcurrency := requireItemCurrency_eq_ok_iff.2 (currency item List.mem_cons_self)
        simp [Edit.result, on_addItem, draft, hcurrency, hnew]
      have hrest : withItems { inv with items := inv.items ++ [item] } items =
          .ok { inv with items := inv.items ++ [item] ++ items } :=
        ih draft (fun i hi => currency i (List.mem_cons_of_mem _ hi)) (by simpa using distinct)
      rw [withItems_cons, hadd, Except.ok_bind, hrest, List.append_assoc, List.singleton_append]

/-- Items that have gone into an invoice stand behind those it had. -/
theorem items_of_withItems (h : inv.withItems items = .ok after) :
    after.items = inv.items ++ items := by
  induction items generalizing inv with
  | nil =>
      obtain rfl := Except.ok.inj h
      exact (List.append_nil _).symm
  | cons item items ih =>
      rw [withItems_cons] at h
      obtain ⟨mid, hadd, hrest⟩ := Except.bind_eq_ok_iff.1 h
      have hmid : mid.items = inv.items ++ [item] := by
        cases change_of_addItem (.midnight inv.dueDate) hadd
        rfl
      rw [ih hrest, hmid, List.append_assoc, List.singleton_append]

/-- The items of a prorated invoice are those that were made for it. -/
theorem proratedItems_of_prorate {numbering : Numbering InvoiceNumber} {c : Counter}
    (h : ((prorate start finish numbering today fresh).on inv c).1.1 = .ok after) :
    inv.proratedItems start finish fresh = .ok after.items := by
  rw [on_prorate] at h
  split at h
  next hitems hdue =>
    obtain ⟨number, -, h⟩ := Except.bind_eq_ok_iff.1 h
    rw [create_prorationFields hdue, Except.ok_bind] at h
    rw [items_of_withItems h]
    exact hitems
  next => cases h
  next => cases h

/-- All that can fail in a proration is what the check looks at, and to obtain a number. -/
theorem prorate_eq (hcurrency : inv.OneCurrency) (start finish : Given)
    (numbering : Numbering InvoiceNumber) (today : Date) (fresh : Fresh) (c : Counter) :
    ((prorate start finish numbering today fresh).on inv c).1.1 = do
      let items ← inv.proratedItems start finish fresh
      requireFuture inv.dueDate today
      let number ← (numbering.on c).1
      return { inv.prorationDraft start finish number fresh with items } := by
  rw [on_prorate]
  cases hitems : inv.proratedItems start finish fresh with
  | error e => rfl
  | ok items =>
      cases hdue : requireFuture inv.dueDate today with
      | error e => rfl
      | ok _ =>
          simp only [Except.ok_bind]
          refine bind_congr fun number => ?_
          rw [create_prorationFields hdue, Except.ok_bind]
          have hcurrencies := currencies_of_proratedItems hcurrency hitems
          exact withItems_eq_ok rfl hcurrencies (ids_of_proratedItems hitems)

/-- An invoice that passes the check is prorated under any number. -/
theorem exists_prorated (hcurrency : inv.OneCurrency)
    (hchecked : ((checkProration start finish today).on inv).1 = .ok ()) (number : InvoiceNumber)
    (fresh : Fresh) (c : Counter) :
    ∃ new, ((prorate start finish (pure number) today fresh).on inv c).1.1 = .ok new := by
  rw [on_checkProration] at hchecked
  obtain ⟨items, hitems, hdue⟩ := Except.bind_eq_ok_iff.1 hchecked
  obtain ⟨again, hagain⟩ := Except.outcome_eq_ok_iff.1 ((outcome_proratedItems inv start finish
    fresh (.following 0)).trans (Except.outcome_eq_ok_iff.2 ⟨items, hitems⟩))
  rw [prorate_eq hcurrency, hagain, hdue]
  exact ⟨_, rfl⟩

end Invoice

end Billing
