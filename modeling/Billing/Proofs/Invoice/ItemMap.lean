import Billing.Proofs.Given
import Billing.Proofs.Invoice.Consistency
import Billing.Proofs.Invoice.Run
import Billing.Proofs.Keyed

set_option autoImplicit false

/-! # The items of a draft

The items of a draft are a map from identifiers to items that keeps the order in which they were
added (`ItemMap`). An item is added if it is in the currency of the invoice and its identifier is
new, and it is removed if it is there. An update may change any of the fields: it makes the item
once, with all of them in place (`LineItem.replaced`), although the program makes it again for each
of them (`Invoice.patched_eq`). So updates of two items may change places.
-/

namespace Billing

/-! ## An update at once -/

/-- A value, or another one if it is missing. -/
def Given.orElse (g other : Given) : Given :=
  match g with
  | .missing => other
  | g => g

/-- The fields of an item with those that are to change in place. -/
def ItemPatch.onto (patch : ItemPatch) (f : ItemFields) : ItemFields where
  description := patch.description.orElse f.description
  quantity := patch.quantity.orElse f.quantity
  unitPrice := patch.unitPrice.orElse f.unitPrice
  taxRate := patch.taxRate.or f.taxRate
  id := f.id

namespace LineItem

variable {i : LineItem} {g : Given}

/-- The item made once with all that is to change, in the currency of its invoice. -/
def replaced (currency : Currency) (patch : ItemPatch) (i : LineItem) :
    Except Failure LineItem := do
  let made ← of (patch.onto i.fields) i.id
  Invoice.requireItemCurrency currency made
  return made

theorem quantityOf_quantity (i : LineItem) : quantityOf (.decimal (.finite i.quantity)) =
    .ok ⟨i.quantity, i.quantity_pos, i.quantity_readable⟩ := by
  simp [quantityOf, Given.toDecimal_finite, i.quantity_pos, i.quantity_readable]

theorem unitPriceOf_unitPrice (i : LineItem) :
    unitPriceOf (.money i.unitPrice) = .ok ⟨i.unitPrice, i.unitPrice_pos⟩ := by
  simp [unitPriceOf, i.unitPrice_pos]

theorem withDescription_eq (i : LineItem) (g : Given) :
    i.withDescription g =
      (g.toLabel "description").map fun description => { i with description } := by
  simp only [withDescription, remake, of, fields, quantityOf_quantity, unitPriceOf_unitPrice,
    Identifier.ofGiven_text]
  cases g.toLabel "description" <;> rfl

theorem withQuantity_eq (i : LineItem) (g : Given) :
    i.withQuantity g = (quantityOf g).map fun q =>
      { i with quantity := q.1, quantity_pos := q.2.1, quantity_readable := q.2.2 } := by
  simp only [withQuantity, remake, of, fields, Given.toLabel_text, unitPriceOf_unitPrice,
    Identifier.ofGiven_text]
  cases quantityOf g <;> rfl

theorem withUnitPrice_eq (i : LineItem) (g : Given) :
    i.withUnitPrice g = (unitPriceOf g).map fun p =>
      { i with unitPrice := p.1, unitPrice_pos := p.2 } := by
  simp only [withUnitPrice, remake, of, fields, Given.toLabel_text, quantityOf_quantity,
    Identifier.ofGiven_text]
  cases unitPriceOf g <;> rfl

theorem withTaxRate_eq (i : LineItem) (t : TaxRate) :
    i.withTaxRate (some t) = .ok { i with taxRate := t } := by
  simp only [withTaxRate, remake, of, fields, Given.toLabel_text, quantityOf_quantity,
    unitPriceOf_unitPrice, Identifier.ofGiven_text]
  rfl

end LineItem

namespace Invoice

open LineItem

variable {currency : Currency} {item : LineItem} {patch : ItemPatch}

theorem unlessMissing_of_ne {g : Given} (h : g ≠ .missing)
    (change : Given → Except Failure LineItem) (item : LineItem) :
    unlessMissing g change item = change g ∧ ∀ other, g.orElse other = g := by
  cases g
  case missing => exact absurd rfl h
  all_goals exact ⟨rfl, fun other => rfl⟩

theorem unlessMissing_description (g : Given) (item : LineItem) :
    unlessMissing g item.withDescription item =
      ((g.orElse (.text item.description.text)).toLabel "description").map
        fun description => { item with description } := by
  by_cases h : g = .missing
  · rw [h, Given.orElse, Given.toLabel_text]
    rfl
  · obtain ⟨hchange, horElse⟩ := unlessMissing_of_ne h item.withDescription item
    rw [hchange, horElse, withDescription_eq]

theorem unlessMissing_quantity (g : Given) (item : LineItem) :
    unlessMissing g item.withQuantity item =
      (quantityOf (g.orElse (.decimal (.finite item.quantity)))).map fun q =>
        { item with quantity := q.1, quantity_pos := q.2.1, quantity_readable := q.2.2 } := by
  by_cases h : g = .missing
  · rw [h, Given.orElse, quantityOf_quantity]
    rfl
  · obtain ⟨hchange, horElse⟩ := unlessMissing_of_ne h item.withQuantity item
    rw [hchange, horElse, withQuantity_eq]

/-- A price that stays as it is is in the currency of the invoice already. -/
theorem unlessMissing_unitPrice (hcurrency : item.unitPrice.currency = currency) (g : Given) :
    unlessMissing g (fun g => do
        let priced ← item.withUnitPrice g
        requireItemCurrency currency priced
        return priced) item = do
      let price ← unitPriceOf (g.orElse (.money item.unitPrice))
      let priced := { item with unitPrice := price.1, unitPrice_pos := price.2 }
      requireItemCurrency currency priced
      return priced := by
  by_cases h : g = .missing
  · rw [h, Given.orElse, unitPriceOf_unitPrice, Except.ok_bind]
    simp only [requireItemCurrency_eq_ok_iff.2 hcurrency]
    rfl
  · obtain ⟨hchange, horElse⟩ := unlessMissing_of_ne h (fun g => do
      let priced ← item.withUnitPrice g
      requireItemCurrency currency priced
      return priced) item
    rw [hchange, horElse, withUnitPrice_eq]
    cases unitPriceOf g <;> rfl

/-- To make an item again for each field that changes comes to the same as to make it once. -/
theorem patched_eq (hcurrency : item.unitPrice.currency = currency) (patch : ItemPatch) :
    patched currency patch item = item.replaced currency patch := by
  rw [patched, unlessMissing_description]
  simp only [replaced, of, ItemPatch.onto, fields, Identifier.ofGiven_text]
  cases (patch.description.orElse (.text item.description.text)).toLabel "description" with
  | error e => rfl
  | ok description =>
      simp only [Except.map, Except.ok_bind, unlessMissing_quantity]
      cases quantityOf (patch.quantity.orElse (.decimal (.finite item.quantity))) with
      | error e => rfl
      | ok quantity =>
          -- the price is still that of the item, in the currency of the invoice
          rw [Except.ok_bind, unlessMissing_unitPrice (by exact hcurrency)]
          cases unitPriceOf (patch.unitPrice.orElse (.money item.unitPrice)) with
          | error e => rfl
          | ok price =>
              simp only [Except.ok_bind, Except.pure_eq_ok, requireItemCurrency]
              -- the tax rate is changed after the check of the currency, but never refused
              split
              · cases patch.taxRate with
                | none => rfl
                | some t =>
                    simp only [Except.ok_bind, withTaxRate_eq]
                    rfl
              · rfl

end Invoice

/-! ## Maps of items -/

/-- Items under their identifiers, in the order in which they were added. -/
@[ext]
structure ItemMap where
  order : List String
  item : String → Option LineItem

/-- What is done to the items of a draft. -/
inductive ItemCommand where
  | add (item : LineItem)
  | remove (id : String)
  | update (id : String) (patch : ItemPatch)

namespace ItemCommand

/-- The command to the invoice. -/
def command : ItemCommand → Command
  | add item => .addItem item
  | remove id => .removeItem id
  | update id patch => .updateItem id patch

end ItemCommand

namespace ItemMap

/-- The items of a list, the first one with each identifier. -/
def ofList (items : List LineItem) : ItemMap where
  order := items.map fun i => i.id.text
  item id := items.find? fun i => i.id.text == id

/-- The items in their order. -/
def toList (m : ItemMap) : List LineItem := m.order.filterMap m.item

/-- Puts a new item at the end. -/
def insert (m : ItemMap) (i : LineItem) : ItemMap where
  order := m.order ++ [i.id.text]
  item := Function.update m.item i.id.text (some i)

/-- Takes an item out; the others keep their order. -/
def erase (m : ItemMap) (id : String) : ItemMap where
  order := m.order.filter (· != id)
  item := Function.update m.item id none

/-- Puts an item in the place of another one. -/
def put (m : ItemMap) (id : String) (i : LineItem) : ItemMap where
  order := m.order
  item := Function.update m.item id (some i)

/-- The item that an update puts in the place of the one it finds. -/
def updated (currency : Currency) (m : ItemMap) (id : String) (patch : ItemPatch) :
    Except Failure LineItem :=
  match m.item id with
  | some i => i.replaced currency patch
  | none => .error (.broken (.itemMissing id))

/-- What becomes of a command, and the map after it: a command that fails changes nothing. -/
def step (currency : Currency) (m : ItemMap) :
    ItemCommand → Except Failure (Option LineItem) × ItemMap
  | .add i =>
      if i.unitPrice.currency = currency then
        match m.item i.id.text with
        | none => (.ok none, m.insert i)
        | some _ => (.error (.broken (.itemExists i.id.text)), m)
      else (.error (.broken (.itemCurrency i.unitPrice.currency currency)), m)
  | .remove id =>
      match m.item id with
      | some _ => (.ok none, m.erase id)
      | none => (.error (.broken (.itemMissing id)), m)
  | .update id patch =>
      match m.updated currency id patch with
      | .ok new => (.ok (some new), m.put id new)
      | .error e => (.error e, m)

/-- What becomes of each of several commands, and the map after them. -/
def run (currency : Currency) (m : ItemMap) :
    List ItemCommand → List (Except Failure (Option LineItem)) × ItemMap
  | [] => ([], m)
  | c :: cs =>
      let first := m.step currency c
      let rest := first.2.run currency cs
      (first.1 :: rest.1, rest.2)

variable {items : List LineItem} {i new : LineItem} {id : String}

/-- Nothing is lost about items that are told apart. -/
theorem toList_ofList (h : (items.map fun i => i.id.text).Nodup) :
    (ofList items).toList = items := by
  rw [toList, ofList, List.filterMap_map]
  conv_rhs => rw [← List.filterMap_some (l := items)]
  exact List.filterMap_congr fun i hi => find?_key_self h hi

theorem ofList_concat (hnew : (ofList items).item i.id.text = none) :
    ofList (items ++ [i]) = (ofList items).insert i := by
  refine ItemMap.ext (List.map_append ..) (funext fun id => ?_)
  simp only [ofList, insert] at hnew ⊢
  rw [List.find?_append]
  by_cases hid : id = i.id.text
  · subst hid
    simp [hnew]
  · rw [Function.update_of_ne hid]
    simp [Ne.symm hid]

theorem ofList_eraseP (h : (items.map fun i => i.id.text).Nodup) (id : String) :
    ofList (items.eraseP fun i => i.id.text == id) = (ofList items).erase id := by
  rw [eraseP_key h]
  refine ItemMap.ext ?_ (funext fun other => ?_)
  · simp only [ofList, erase, List.filter_map]
    rfl
  · simp only [ofList, erase]
    by_cases hid : other = id
    · subst hid
      rw [Function.update_self, find?_filter_key_self]
    · rw [Function.update_of_ne hid, find?_filter_key_of_ne hid]

theorem find?_replaceItem (hfound : (items.find? fun j => j.id.text == new.id.text) = some i)
    (other : String) :
    ((Invoice.replaceItem new items).find? fun j => j.id.text == other) =
      if other = new.id.text then some new else items.find? fun j => j.id.text == other := by
  induction items with
  | nil => cases hfound
  | cons j items ih =>
      rw [Invoice.replaceItem]
      by_cases hid : j.id.text = new.id.text
      · have hsame : j.id = new.id := Identifier.text_injective hid
        rw [if_pos (beq_iff_eq.2 hsame)]
        by_cases hother : other = new.id.text
        · simp [hother]
        · have hne : ¬ new.id.text = other := fun h => hother h.symm
          simp [hother, hid, hne]
      · have hdifferent : ¬ j.id = new.id := fun h => hid (congrArg _ h)
        rw [if_neg (by simpa using hdifferent), List.find?_cons, List.find?_cons]
        have hrest := ih (by simpa [hid] using hfound)
        by_cases hother : j.id.text = other
        · subst hother
          simp [hid]
        · rw [beq_eq_false_iff_ne.2 hother]
          exact hrest

theorem ofList_replaceItem (hfound : (ofList items).item new.id.text = some i) :
    ofList (Invoice.replaceItem new items) = (ofList items).put new.id.text new := by
  refine ItemMap.ext ?_ (funext fun other => ?_)
  · have hids := congrArg (List.map Identifier.text) (Invoice.map_id_replaceItem new items)
    rwa [List.map_map, List.map_map] at hids
  · simp only [ofList, put, Function.update_apply]
    exact find?_replaceItem hfound other

/-! ### Updates of different items -/

section Different

variable {m : ItemMap} {currency : Currency} {id' : String} {new' : LineItem}
  {patch patch' : ItemPatch} (hne : id ≠ id')

include hne

theorem put_comm : (m.put id new).put id' new' = (m.put id' new').put id new :=
  ItemMap.ext rfl (Function.update_comm hne ..)

/-- An update does not see what another one has made. -/
theorem updated_put : (m.put id new).updated currency id' patch = m.updated currency id' patch := by
  have hitem : (m.put id new).item id' = m.item id' := Function.update_of_ne hne.symm _ _
  rw [updated, updated, hitem]

theorem update_comm (m : ItemMap) (currency : Currency) (patch patch' : ItemPatch) :
    ∃ r r' last, m.run currency [.update id patch, .update id' patch'] = ([r, r'], last) ∧
      m.run currency [.update id' patch', .update id patch] = ([r', r], last) := by
  cases h : m.updated currency id patch with
  | error e =>
      cases h' : m.updated currency id' patch' with
      | error e' => exact ⟨.error e, .error e', m, by simp [run, step, h, h']⟩
      | ok new' =>
          exact ⟨.error e, .ok (some new'), m.put id' new', by
            simp [run, step, h, h', updated_put hne.symm]⟩
  | ok new =>
      cases h' : m.updated currency id' patch' with
      | error e' =>
          exact ⟨.ok (some new), .error e', m.put id new, by
            simp [run, step, h, h', updated_put hne]⟩
      | ok new' =>
          exact ⟨.ok (some new), .ok (some new'), (m.put id new).put id' new', by
            simp [run, step, h, h', updated_put hne, updated_put hne.symm, put_comm hne]⟩

end Different

end ItemMap

/-! ## Drafts -/

namespace Invoice

variable {inv : Invoice} {f : InvoiceFields} {today : Date} {fresh : Fresh}

/-- What becomes of each of several commands to the items, each given at some moment, and the
invoice after them. -/
def runItems (inv : Invoice) :
    List (Moment × ItemCommand) → List (Except Failure (Option LineItem)) × Invoice
  | [] => ([], inv)
  | (clock, c) :: cs =>
      let first := (apply clock c.command).on inv
      let rest := first.2.runItems cs
      (first.1 :: rest.1, rest.2)

/-- The items of an invoice as a map. -/
def itemMap (inv : Invoice) : ItemMap := .ofList inv.items

theorem Consistent.texts (h : inv.Consistent) : (inv.items.map fun i => i.id.text).Nodup := by
  have htexts := h.ids.map Identifier.text_injective
  rwa [List.map_map] at htexts

theorem any_id_eq (inv : Invoice) (id : Identifier) :
    (inv.items.any fun i => i.id == id) = (inv.itemMap.item id.text).isSome := by
  have htext : ∀ i : LineItem, (i.id == id) = (i.id.text == id.text) := fun i => by
    rw [Bool.eq_iff_iff, beq_iff_eq, beq_iff_eq, Identifier.text_injective.eq_iff]
  simp only [itemMap, ItemMap.ofList, List.isSome_find?, htext]

section Commands

variable (draft : inv.status = .draft)

include draft

theorem exists_on_add (clock : Moment) (i : LineItem) : ∃ items,
    (apply clock (.addItem i)).on inv =
      ((inv.itemMap.step inv.currency (.add i)).1, { inv with items }) ∧
        ItemMap.ofList items = (inv.itemMap.step inv.currency (.add i)).2 := by
  have hany := inv.any_id_eq i.id
  simp only [apply, Procedure.on_bind, on_addItem, if_pos draft, requireItemCurrency, ItemMap.step]
  by_cases hcurrency : i.unitPrice.currency = inv.currency
  case neg =>
    rw [if_neg hcurrency, if_neg hcurrency]
    exact ⟨inv.items, rfl, rfl⟩
  rw [if_pos hcurrency, if_pos hcurrency]
  cases hfound : inv.itemMap.item i.id.text with
  | some j =>
      rw [hfound] at hany
      simp only [hany]
      exact ⟨inv.items, rfl, rfl⟩
  | none =>
      rw [hfound] at hany
      simp only [hany]
      exact ⟨inv.items ++ [i], rfl, ItemMap.ofList_concat hfound⟩

theorem exists_on_remove (h : inv.Consistent) (clock : Moment) (id : String) : ∃ items,
    (apply clock (.removeItem id)).on inv =
      ((inv.itemMap.step inv.currency (.remove id)).1, { inv with items }) ∧
        ItemMap.ofList items = (inv.itemMap.step inv.currency (.remove id)).2 := by
  have hfind : (inv.items.find? fun i => i.id.text == id) = inv.itemMap.item id := rfl
  simp only [apply, Procedure.on_bind, on_removeItem, if_pos draft, ItemMap.step, hfind]
  cases inv.itemMap.item id with
  | none => exact ⟨inv.items, rfl, rfl⟩
  | some i => exact ⟨_, rfl, ItemMap.ofList_eraseP h.texts id⟩

theorem exists_on_update (h : inv.Consistent) (clock : Moment) (id : String) (patch : ItemPatch) :
    ∃ items, (apply clock (.updateItem id patch)).on inv =
      ((inv.itemMap.step inv.currency (.update id patch)).1, { inv with items }) ∧
        ItemMap.ofList items = (inv.itemMap.step inv.currency (.update id patch)).2 := by
  have hfind : (inv.items.find? fun i => i.id.text == id) = inv.itemMap.item id := rfl
  simp only [apply, Procedure.on_bind, on_updateItem, if_pos draft, ItemMap.step, ItemMap.updated,
    hfind]
  cases hfound : inv.itemMap.item id with
  | none => exact ⟨inv.items, rfl, rfl⟩
  | some i =>
      have hcurrency := (h.items i (List.mem_of_find?_eq_some (hfind.trans hfound))).1
      simp only [patched_eq hcurrency]
      cases hnew : i.replaced inv.currency patch with
      | error e => exact ⟨inv.items, rfl, rfl⟩
      | ok new =>
          obtain rfl : new.id.text = id := by
            rw [← (mem_of_find?_key hfound).2, (patched_eq_ok hcurrency ((patched_eq hcurrency patch).trans hnew)).1]
          exact ⟨_, rfl, ItemMap.ofList_replaceItem hfound⟩

end Commands

/-- One command to the items of a draft does what it does to their map, and nothing else. -/
theorem exists_on_item (h : inv.Consistent) (draft : inv.status = .draft) (clock : Moment)
    (c : ItemCommand) : ∃ items, (apply clock c.command).on inv =
      ((inv.itemMap.step inv.currency c).1, { inv with items }) ∧
        ItemMap.ofList items = (inv.itemMap.step inv.currency c).2 := by
  cases c with
  | add i => exact exists_on_add draft clock i
  | remove id => exact exists_on_remove draft h clock id
  | update id patch => exact exists_on_update draft h clock id patch

/-- The items of an invoice as they behave while it is a draft. -/
structure ItemsAreMap (inv : Invoice) : Prop where
  /-- each command does what it does to the map, and nothing else -/
  run : ∀ cs : List (Moment × ItemCommand), inv.runItems cs =
    ((inv.itemMap.run inv.currency (cs.map Prod.snd)).1,
      { inv with items := (inv.itemMap.run inv.currency (cs.map Prod.snd)).2.toList })
  /-- nothing is lost about the map -/
  last : ∀ cs : List (Moment × ItemCommand), (inv.runItems cs).2.itemMap =
    (inv.itemMap.run inv.currency (cs.map Prod.snd)).2
  /-- updates of different items may change places, also where they fail -/
  update_comm : ∀ (clock clock' : Moment) (id id' : String) (patch patch' : ItemPatch), id ≠ id' →
    ∃ r r' last,
      inv.runItems [(clock, .update id patch), (clock', .update id' patch')] = ([r, r'], last) ∧
      inv.runItems [(clock', .update id' patch'), (clock, .update id patch)] = ([r', r], last)

/-- Several commands to the items of a draft do what they do to their map. -/
theorem runItems_eq (h : inv.Consistent) (draft : inv.status = .draft)
    (cs : List (Moment × ItemCommand)) :
    inv.runItems cs = ((inv.itemMap.run inv.currency (cs.map Prod.snd)).1,
        { inv with items := (inv.itemMap.run inv.currency (cs.map Prod.snd)).2.toList }) ∧
      (inv.runItems cs).2.itemMap = (inv.itemMap.run inv.currency (cs.map Prod.snd)).2 := by
  induction cs generalizing inv with
  | nil =>
      have hitems : inv.itemMap.toList = inv.items := ItemMap.toList_ofList h.texts
      refine ⟨?_, rfl⟩
      show ([], inv) = ([], { inv with items := inv.itemMap.toList })
      rw [hitems]
  | cons c cs ih =>
      obtain ⟨items, hon, hmap⟩ := exists_on_item h draft c.1 c.2
      have hafter : (Invoice.run inv [⟨c.1, c.2.command⟩]).Consistent :=
        run_induction h Consistent.change
      rw [run_cons, run_nil, after, hon] at hafter
      have hmap : itemMap { inv with items } = (inv.itemMap.step inv.currency c.2).2 := hmap
      obtain ⟨hrun, hlast⟩ := ih hafter draft
      rw [hmap] at hrun hlast
      rw [hrun] at hlast
      constructor
      · simp only [runItems, hon, hrun, List.map_cons, ItemMap.run]
      · simp only [runItems, hon, hrun, List.map_cons, ItemMap.run]
        exact hlast

/-- The items of a draft are a map that keeps the order in which they were added: every sequence of
commands to them ends as it does for the map, command by command. -/
theorem items_are_map (steps : List Step) (h : create f today fresh = .ok inv)
    (draft : (inv.run steps).status = .draft) : (inv.run steps).ItemsAreMap := by
  have hconsistent : (inv.run steps).Consistent :=
    run_induction (consistent_of_create h) Consistent.change
  have hrun := fun cs => (runItems_eq hconsistent draft cs).1
  refine ⟨hrun, fun cs => (runItems_eq hconsistent draft cs).2,
    fun clock clock' id id' patch patch' hne => ?_⟩
  obtain ⟨r, r', last, hfirst, hsecond⟩ := ItemMap.update_comm hne (inv.run steps).itemMap
    (inv.run steps).currency patch patch'
  refine ⟨r, r', { inv.run steps with items := last.toList }, ?_, ?_⟩
  · rw [hrun]
    simp only [List.map_cons, List.map_nil, hfirst]
  · rw [hrun]
    simp only [List.map_cons, List.map_nil, hsecond]

/-- The sample invoice with its item on it. -/
theorem items_are_map_sample :
    create sampleFields sampleDay (.following 0) = .ok sample ∧
      (sample.run [sampleStep (.addItem .sample)]).status = .draft ∧
      (sample.run [sampleStep (.addItem .sample)]).items = [.sample] ∧
      (sample.run [sampleStep (.addItem .sample)]).ItemsAreMap := by
  have hdraft : (sample.run [sampleStep (.addItem .sample)]).status = .draft := by decide +kernel
  exact ⟨create_sample, hdraft, by decide +kernel, items_are_map _ create_sample hdraft⟩

end Invoice

end Billing
