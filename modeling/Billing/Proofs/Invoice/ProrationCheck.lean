import Billing.Proofs.Invoice.Prorated

set_option autoImplicit false

/-! # The check predicts the proration

The check of a proration and the proration itself fail alike, or neither of them fails, and then
the new invoice shows its source item by item (`Invoice.Prorated`). The main statement is
`Invoice.prorate_as_checked`: it holds of every invoice that can be made or brought back, in every
state.
-/

namespace Billing

/-! ## The description of a prorated item -/

namespace Text

/-- Trimming at the end loses nothing behind a last character that is not blank. -/
theorem trimEnd_concat (cs : List Char) {c : Char} (h : isBlank c = false) :
    trimEnd (cs ++ [c]) = cs ++ [c] := by
  rw [trimEnd, List.reverse_append, List.reverse_singleton, List.singleton_append,
    trimStart_of_head h]
  simp

end Text

namespace Label

/-- A label begins with a character that is not blank. -/
theorem exists_toList (l : Label) :
    ∃ c cs, l.text.toList = c :: cs ∧ Text.isBlank c = false := by
  have hstrip := l.strip_text
  rcases Text.trimStart_eq_nil_or_cons l.text.toList with hnil | ⟨c, rest, hcons, hc⟩
  · -- only a blank text has nothing but blanks in front
    have hblank := l.not_blank
    rw [Text.isBlankText, Text.strip, Text.trim, hnil] at hblank
    cases hblank
  · obtain ⟨cs, hcs⟩ := Text.trimEnd_cons rest hc
    refine ⟨c, cs, ?_, hc⟩
    rw [Text.strip, Text.trim, hcons, hcs] at hstrip
    rw [← hstrip, String.toList_ofList]

/-- What is written behind a label and does not end in a blank makes a longer label. -/
theorem strip_append (l : Label) {s : String} {cs : List Char} {c : Char}
    (hs : s.toList = cs ++ [c]) (hc : Text.isBlank c = false) :
    Text.strip (l.text ++ s) = l.text ++ s := by
  obtain ⟨d, ds, hl, hd⟩ := l.exists_toList
  have hchars : (l.text ++ s).toList = d :: ds ++ cs ++ [c] := by
    rw [String.toList_append, hl, hs, List.append_assoc]
  have htrim : Text.trim (d :: ds ++ cs ++ [c]) = d :: ds ++ cs ++ [c] := by
    rw [Text.trim, List.cons_append, List.cons_append, Text.trimStart_of_head hd,
      ← List.cons_append, ← List.cons_append, Text.trimEnd_concat _ hc]
  rw [Text.strip, hchars, htrim, ← hchars, String.ofList_toList]

/-- The description of a prorated item. -/
def prorated (l : Label) : Label where
  text := l.text ++ " (Prorated)"
  strip_text := by
    have hend : " (Prorated)".toList = " (Prorated".toList ++ [')'] := by decide
    exact l.strip_append hend (by decide)
  not_blank := by
    obtain ⟨d, ds, hl, hd⟩ := l.exists_toList
    exact Text.isBlankText_of_toList (by rw [String.toList_append, hl, List.cons_append]) hd

end Label

namespace Invoice

variable {f : InvoiceFields} {r : InvoiceRecord} {made fresh : Fresh} {inv new : Invoice}
  {item prorated : LineItem} {start finish : Given} {today : Date} {factor : Decimal}
  {id : Identifier} {number : InvoiceNumber}

/-- An item and the prorated one that is made from it. -/
structure ItemProrated (item prorated : LineItem) : Prop where
  quantity : prorated.quantity = item.quantity
  taxRate : prorated.taxRate = item.taxRate
  description : prorated.description.text = item.description.text ++ " (Prorated)"
  currency : prorated.unitPrice.currency = item.unitPrice.currency
  positive : 0 < prorated.unitPrice.amount.signedCents

/-- All that can fail about a prorated item is its price. -/
theorem proratedItem_eq (factor : Decimal) (item : LineItem) (id : Identifier) :
    proratedItem factor item id = do
      let price ← item.unitPrice.scale factor
      let price ← LineItem.unitPriceOf (.money price)
      return { item with
        id
        description := item.description.prorated
        unitPrice := price.1
        unitPrice_pos := price.2 } := by
  have hdescription : (Given.text (item.description.text ++ " (Prorated)")).toLabel "description" =
      .ok item.description.prorated := Given.toLabel_text item.description.prorated
  simp only [proratedItem, LineItem.of, hdescription, LineItem.quantityOf, Given.toDecimal_finite,
    item.quantity_pos, item.quantity_readable, Except.ok_bind]
  rfl

theorem itemProrated_of_eq_ok (h : proratedItem factor item id = .ok prorated) :
    ItemProrated item prorated := by
  have hcurrency := currency_of_proratedItem h
  rw [proratedItem_eq] at h
  obtain ⟨_, -, h⟩ := Except.bind_eq_ok_iff.1 h
  obtain ⟨price, -, h⟩ := Except.bind_eq_ok_iff.1 h
  obtain rfl := Except.ok.inj h
  exact ⟨rfl, rfl, rfl, hcurrency, LineItem.unitPrice_above_zero _⟩

/-- The items of the new invoice stand for those of the source, in their order. -/
theorem itemsProrated_of_eq_ok {items : List LineItem}
    (h : inv.proratedItems start finish fresh = .ok items) :
    List.Forall₂ ItemProrated inv.items items := by
  obtain ⟨factor, -, hall⟩ := forall₂_of_proratedItems h
  have hitems := hall.imp fun p i hi => itemProrated_of_eq_ok hi
  rwa [← List.forall₂_map_left_iff (f := Prod.fst), List.zipIdx_map_fst] at hitems

/-- An invoice that has been prorated from a source: a new standard draft under a given number. -/
structure Prorated (source : Invoice) (number : InvoiceNumber) (fresh : Fresh) (new : Invoice) :
    Prop where
  version : new.version = 0
  type : new.type = .standard
  status : new.status = .draft
  number : new.number = number
  clientId : new.clientId = source.clientId
  issuedBy : new.issuedBy = source.issuedBy
  projectId : new.projectId = source.projectId
  currency : new.currency = source.currency
  dueDate : new.dueDate = source.dueDate
  items : List.Forall₂ ItemProrated source.items new.items
  /-- the identifiers are new, one for each place -/
  ids : new.items.map LineItem.id = (List.range source.items.length).map fresh.item
  distinct : (new.items.map LineItem.id).Nodup

theorem prorated_of_proratedItems {items : List LineItem} (number : InvoiceNumber)
    (h : inv.proratedItems start finish fresh = .ok items) :
    inv.Prorated number fresh { inv.prorationDraft start finish number fresh with items } where
  version := rfl
  type := rfl
  status := rfl
  number := rfl
  clientId := rfl
  issuedBy := rfl
  projectId := rfl
  currency := rfl
  dueDate := rfl
  items := itemsProrated_of_eq_ok h
  ids := map_id_of_proratedItems h
  distinct := ids_of_proratedItems h

/-- Under a number that is given, a proration ends as its check does. -/
theorem outcome_prorate (hcurrency : inv.OneCurrency) (start finish : Given) (today : Date)
    (number : InvoiceNumber) (fresh : Fresh) (c : Counter) :
    ((prorate start finish (pure number) today fresh).on inv c).1.1.outcome =
      ((checkProration start finish today).on inv).1 := by
  rw [prorate_eq hcurrency, on_checkProration]
  calc
    _ = (inv.proratedItems start finish fresh).outcome >>= fun _ =>
        requireFuture inv.dueDate today := by
      refine Except.outcome_bind fun items => ?_
      -- the number that is given cannot be missing
      cases requireFuture inv.dueDate today <;> rfl
    _ = _ := by
      rw [outcome_proratedItems inv start finish fresh (.following 0), Except.outcome_bind_const]

/-- Whatever has become of an invoice that was made or brought back, it can be prorated under a
number exactly if it passes the check, and otherwise both fail with the same error. What is made is
a new standard draft under that number, which shows the source item by item. -/
theorem prorate_as_checked (steps : List Step) (start finish : Given) (today : Date)
    (number : InvoiceNumber) (fresh : Fresh) (c : Counter) (h : restore f r made = .ok inv) :
    ((prorate start finish (pure number) today fresh).on (inv.run steps) c).1.1.outcome =
        ((checkProration start finish today).on (inv.run steps)).1 ∧
      ∀ new, ((prorate start finish (pure number) today fresh).on (inv.run steps) c).1.1 = .ok new →
        (inv.run steps).Prorated number fresh new := by
  have hcurrency := (oneCurrency_of_restore h).run steps
  refine ⟨outcome_prorate hcurrency start finish today number fresh c, fun new hnew => ?_⟩
  rw [prorate_eq hcurrency] at hnew
  obtain ⟨items, hitems, hnew⟩ := Except.bind_eq_ok_iff.1 hnew
  obtain ⟨_, -, hnew⟩ := Except.bind_eq_ok_iff.1 hnew
  obtain ⟨_, hnumber, hnew⟩ := Except.bind_eq_ok_iff.1 hnew
  obtain rfl : number = _ := Except.ok.inj hnumber
  obtain rfl := Except.ok.inj hnew
  exact prorated_of_proratedItems number hitems

/-- The sample invoice, billed every month. -/
def sampleMonthlyFields : InvoiceFields :=
  { sampleFields with type := .text "RECURRING", frequency := .text "MONTHLY" }

def sampleMonthly : Invoice := { sample with type := .recurring, frequency := some .monthly }

theorem restore_sampleMonthly :
    restore sampleMonthlyFields {} (.following 0) = .ok sampleMonthly := by
  decide +kernel

/-- Its items are charged for half of January 2026. -/
theorem prorate_as_checked_sample :
    restore sampleMonthlyFields {} (.following 0) = .ok sampleMonthly ∧
      ∃ new, ((prorate (.day sampleDay) (.day ⟨2026, 1, 16, by decide⟩) (pure sample.number)
          sampleDay (.following 1)).on (sampleMonthly.run sampleSending) .start).1.1 = .ok new ∧
        (sampleMonthly.run sampleSending).Prorated sample.number (.following 1) new := by
  obtain ⟨houtcome, hprorated⟩ := prorate_as_checked sampleSending (.day sampleDay)
    (.day ⟨2026, 1, 16, by decide⟩) sampleDay sample.number (.following 1) .start
    restore_sampleMonthly
  have hchecked : ((checkProration (.day sampleDay) (.day ⟨2026, 1, 16, by decide⟩) sampleDay).on
      (sampleMonthly.run sampleSending)).1 = .ok () := by decide +kernel
  obtain ⟨new, hnew⟩ := Except.outcome_eq_ok_iff.1 (houtcome.trans hchecked)
  exact ⟨restore_sampleMonthly, new, hnew, hprorated new hnew⟩

end Invoice

end Billing
