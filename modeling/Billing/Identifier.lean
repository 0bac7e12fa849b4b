import Billing.Text.Hexadecimal
import Billing.Text.Layout

set_option autoImplicit false

/-! # Identifiers

Invoices and items have an `Identifier`, which is any text but the empty one. Those that are made
without one get a new one. Where the randomness comes from is left to the caller, who passes the
new identifiers as a `Fresh`.
-/

namespace Billing

/-- What an invoice or an item is told apart by. -/
structure Identifier where
  text : String
  text_ne : text ≠ ""
  deriving DecidableEq, Repr

namespace Identifier

/-- The given identifier, or the new one if none or an empty one is given. -/
def ofGiven (given : Option String) (new : Identifier) : Identifier :=
  match given with
  | some s => if h : s = "" then new else ⟨s, h⟩
  | none => new

theorem ofGiven_text (i new : Identifier) : ofGiven (some i.text) new = i := by
  simp [ofGiven, i.text_ne]

theorem ofList_append_cons_ne (xs ys : List Char) (c : Char) :
    String.ofList (xs ++ c :: ys) ≠ "" := by
  intro h
  have := congrArg String.toList h
  simp at this

/-! ## New identifiers -/

/-- Thirty-two hexadecimal digits in groups of 8, 4, 4, 4 and 12, marked as a random identifier:
`random` supplies the digits other than the version and the variant. -/
def forInvoice (random : Nat) : Identifier :=
  let ds := Text.hexChars 30 random
  ⟨String.ofList (ds.take 8 ++ '-' :: ((ds.drop 8).take 4 ++ '-' :: '4' ::
    ((ds.drop 12).take 3 ++ '-' :: 'a' :: ((ds.drop 15).take 3 ++ '-' :: ds.drop 18)))),
    ofList_append_cons_ne _ _ _⟩

/-- The hexadecimal digits of a random number, at least twelve of them. -/
def itemDigits (random : Nat) : List Char := Text.zeroFill 12 (Text.hexDigits random)

/-- The word `item` and the digits of a random number. -/
def forItem (random : Nat) : Identifier :=
  ⟨String.ofList (['i', 't', 'e', 'm'] ++ '-' :: itemDigits random), ofList_append_cons_ne _ _ _⟩

theorem hexValue_itemDigits (random : Nat) : Text.hexValue (itemDigits random) = random := by
  rw [itemDigits, Text.zeroFill, Text.hexValue_replicate_append, Text.hexValue_hexDigits]

/-- Different numbers make different identifiers of items. -/
theorem forItem_inj {m n : Nat} (h : forItem m = forItem n) : m = n := by
  have h := congrArg (fun i => i.text.toList) h
  simp only [forItem, String.toList_ofList] at h
  have h := List.cons.inj (List.append_cancel_left h)
  rw [← hexValue_itemDigits m, ← hexValue_itemDigits n, h.2]

end Identifier

/-- Identifiers that are not in use: one for an invoice, and a different one for every place in a
list of items. -/
structure Fresh where
  invoice : Identifier
  item : Nat → Identifier
  item_inj : ∀ m n, item m = item n → m = n

/-- The identifiers that follow a random number. -/
def Fresh.following (random : Nat) : Fresh where
  invoice := .forInvoice random
  item n := .forItem (random + n)
  item_inj _ _ h := Nat.add_left_cancel (Identifier.forItem_inj h)

end Billing
