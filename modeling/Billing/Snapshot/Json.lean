import Billing.Json.Parser
import Billing.Json.Scalar
import Billing.Snapshot.Basic

set_option autoImplicit false

/-! # Snapshots as JSON

A snapshot is written as an object with its fields in a fixed order (`Snapshot.toJson`) and read
back with every part checked (`Snapshot.ofJson`). Members that are not fields are passed over, and
fields that can be without a value may be left out.
-/

namespace Billing

open Json

/-! ## Writing -/

def MoneyImage.toJson (m : MoneyImage) : Json :=
  obj [("amount", str m.amount), ("currency", str m.currency)]

def TaxRateImage.toJson (t : TaxRateImage) : Json :=
  obj [("rate", str t.rate), ("classification", str t.kind)]

def ItemImage.toJson (i : ItemImage) : Json :=
  obj [("id", str i.id), ("description", str i.description), ("quantity", str i.quantity),
    ("unit_price", i.unitPrice.toJson), ("tax_rate", i.taxRate.toJson),
    ("total", ofOption MoneyImage.toJson i.total)]

def TotalsImage.toJson (t : TotalsImage) : Json :=
  obj [("subtotal", t.subtotal.toJson), ("total_tax", t.totalTax.toJson),
    ("total", t.total.toJson), ("balance_due", t.balanceDue.toJson)]

/-- The moment as it stands in a snapshot. -/
def Moment.toJson (m : Moment) : Json := str m.stamp

def Snapshot.toJson (s : Snapshot) : Json :=
  obj [("id", str s.id), ("number", str s.number), ("client_id", str s.clientId),
    ("project_id", ofOption str s.projectId), ("issued_by", str s.issuedBy),
    ("type", str s.type.name), ("status", str s.status.name), ("currency", str s.currency),
    ("due_date", str s.dueDate.text), ("frequency", ofOption (str ·.name) s.frequency),
    ("notes", ofOption str s.notes), ("items", arr (s.items.map ItemImage.toJson)),
    ("totals", ofOption TotalsImage.toJson s.totals),
    ("finalized_at", ofOption Moment.toJson s.finalizedAt),
    ("sent_at", ofOption Moment.toJson s.sentAt), ("paid_at", ofOption Moment.toJson s.paidAt),
    ("voided_at", ofOption Moment.toJson s.voidedAt),
    ("paid_amount", ofOption MoneyImage.toJson s.paidAmount),
    ("void_reason", ofOption str s.voidReason), ("version", int s.version)]

/-! ## Reading -/

def MoneyImage.ofJson : Json → Checked MoneyImage :=
  object fun ms => MoneyImage.mk <$> required "amount" text ms <*> required "currency" text ms

def TaxRateImage.ofJson : Json → Checked TaxRateImage :=
  object fun ms =>
    TaxRateImage.mk <$> required "rate" text ms <*> required "classification" text ms

def ItemImage.ofJson : Json → Checked ItemImage :=
  object fun ms =>
    ItemImage.mk <$> required "id" text ms <*> required "description" text ms
      <*> required "quantity" text ms <*> required "unit_price" MoneyImage.ofJson ms
      <*> required "tax_rate" TaxRateImage.ofJson ms
      <*> optional "total" none (nullable MoneyImage.ofJson) ms

def TotalsImage.ofJson : Json → Checked TotalsImage :=
  object fun ms =>
    TotalsImage.mk <$> required "subtotal" MoneyImage.ofJson ms
      <*> required "total_tax" MoneyImage.ofJson ms <*> required "total" MoneyImage.ofJson ms
      <*> required "balance_due" MoneyImage.ofJson ms

def Snapshot.ofJson : Json → Checked Snapshot :=
  object fun ms =>
    Snapshot.mk <$> required "id" text ms <*> required "number" text ms
      <*> required "client_id" text ms <*> optional "project_id" none (nullable text) ms
      <*> required "issued_by" text ms <*> required "type" (named InvoiceType.ofName?) ms
      <*> required "status" (named Status.ofName?) ms <*> required "currency" text ms
      <*> required "due_date" date ms
      <*> optional "frequency" none (nullable (named Frequency.ofName?)) ms
      <*> optional "notes" none (nullable text) ms
      <*> optional "items" [] (array ItemImage.ofJson) ms
      <*> optional "totals" none (nullable TotalsImage.ofJson) ms
      <*> optional "finalized_at" none (nullable moment) ms
      <*> optional "sent_at" none (nullable moment) ms
      <*> optional "paid_at" none (nullable moment) ms
      <*> optional "voided_at" none (nullable moment) ms
      <*> optional "paid_amount" none (nullable MoneyImage.ofJson) ms
      <*> optional "void_reason" none (nullable text) ms
      <*> optional "version" 0 integer ms

/-- Reads a snapshot from JSON text. -/
def Snapshot.ofText (s : String) : Checked Snapshot :=
  match Json.parse? .standard s with
  | some v => Snapshot.ofJson v
  | none => .defect .textInvalid

end Billing
