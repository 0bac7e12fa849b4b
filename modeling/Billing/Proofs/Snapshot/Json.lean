import Billing.Snapshot.Json
import Billing.Proofs.Calendar.Stamp
import Billing.Proofs.Json.Checked

set_option autoImplicit false

/-! # Snapshots are read back from their JSON

`Snapshot.ofJson` reads what `Snapshot.toJson` writes, and nothing is lost but the parts of offsets
that stamps do not show: `Snapshot.ofJson_toJson`.
-/

namespace Billing

open Json

namespace Json

variable {α β : Type}

/-- A value that need not be there is read back when the value is, and when it is not null. -/
theorem nullable_ofOption {read : Json → Checked β} {write : α → Json} {back : α → β}
    (hread : ∀ a, read (write a) = .ok (back a)) (hnull : ∀ a, write a ≠ null) (o : Option α) :
    nullable read (ofOption write o) = .ok (o.map back) := by
  cases o with
  | none => rfl
  | some a =>
      rw [ofOption]
      -- what is written is not taken for a missing value
      unfold nullable
      split
      next h => exact absurd h (hnull a)
      next => rw [hread]; rfl

theorem elementsFrom_map {read : Json → Checked α} {write : α → Json}
    (hread : ∀ a, read (write a) = .ok a) (n : Nat) (xs : List α) :
    elementsFrom read n (xs.map write) = .ok xs := by
  induction xs generalizing n with
  | nil => rfl
  | cons x xs ih =>
      rw [List.map_cons, elementsFrom, hread, ih]
      rfl

theorem named_name {ofName? : String → Option α} {name : String} {a : α}
    (h : ofName? name = some a) : named ofName? (.str name) = .ok a := by
  rw [named, h]

end Json

theorem MoneyImage.ofJson_toJson (m : MoneyImage) : MoneyImage.ofJson m.toJson = .ok m := by
  simp [MoneyImage.ofJson, MoneyImage.toJson, object, required, lookup?, Json.text]

theorem TaxRateImage.ofJson_toJson (t : TaxRateImage) : TaxRateImage.ofJson t.toJson = .ok t := by
  simp [TaxRateImage.ofJson, TaxRateImage.toJson, object, required, lookup?, Json.text]

theorem ItemImage.ofJson_toJson (i : ItemImage) : ItemImage.ofJson i.toJson = .ok i := by
  have htotal : nullable MoneyImage.ofJson (ofOption MoneyImage.toJson i.total) = .ok i.total := by
    simpa using nullable_ofOption MoneyImage.ofJson_toJson (by simp [MoneyImage.toJson]) i.total
  simp [ItemImage.ofJson, ItemImage.toJson, object, required, Json.optional, lookup?, Json.text,
    MoneyImage.ofJson_toJson, TaxRateImage.ofJson_toJson, htotal]

theorem TotalsImage.ofJson_toJson (t : TotalsImage) : TotalsImage.ofJson t.toJson = .ok t := by
  simp [TotalsImage.ofJson, TotalsImage.toJson, object, required, lookup?,
    MoneyImage.ofJson_toJson]

namespace Snapshot

/-- The snapshot with its moments as far as their stamps show them. -/
def stamped (s : Snapshot) : Snapshot :=
  { s with
    finalizedAt := s.finalizedAt.map Moment.stamped
    sentAt := s.sentAt.map Moment.stamped
    paidAt := s.paidAt.map Moment.stamped
    voidedAt := s.voidedAt.map Moment.stamped }

theorem ofJson_toJson (s : Snapshot) : Snapshot.ofJson s.toJson = .ok s.stamped := by
  have htext (o : Option String) : nullable text (ofOption str o) = .ok o := by
    have hread (s : String) : text (str s) = .ok s := rfl
    simpa using nullable_ofOption hread (by simp) o
  have hmoment (o : Option Moment) :
      nullable moment (ofOption Moment.toJson o) = .ok (o.map Moment.stamped) :=
    nullable_ofOption Json.moment_stamp (by simp) o
  have hfrequency : nullable (named Frequency.ofName?) (ofOption (str ·.name) s.frequency) =
      .ok s.frequency := by
    simpa using nullable_ofOption (fun f : Frequency => Json.named_name (Frequency.ofName?_name f))
      (by simp) s.frequency
  have htotals : nullable TotalsImage.ofJson (ofOption TotalsImage.toJson s.totals) =
      .ok s.totals := by
    simpa using nullable_ofOption TotalsImage.ofJson_toJson (by simp [TotalsImage.toJson]) s.totals
  have hpaid : nullable MoneyImage.ofJson (ofOption MoneyImage.toJson s.paidAmount) =
      .ok s.paidAmount := by
    simpa using
      nullable_ofOption MoneyImage.ofJson_toJson (by simp [MoneyImage.toJson]) s.paidAmount
  have hitems : array ItemImage.ofJson (arr (s.items.map ItemImage.toJson)) = .ok s.items :=
    elementsFrom_map ItemImage.ofJson_toJson 0 s.items
  have htype := Json.named_name (InvoiceType.ofName?_name s.type)
  have hstatus := Json.named_name (Status.ofName?_name s.status)
  simp [Snapshot.ofJson, Snapshot.toJson, object, required, Json.optional, lookup?, htext, hmoment,
    hfrequency, htotals, hpaid, hitems, htype, hstatus, Json.date_text, Json.integer, stamped,
    Json.text]

end Snapshot

end Billing
