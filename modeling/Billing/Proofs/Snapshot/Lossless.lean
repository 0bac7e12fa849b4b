import Billing.Proofs.Invoice.Totals
import Billing.Proofs.Invoice.Version
import Billing.Proofs.Json.Printed
import Billing.Proofs.Snapshot.Json
import Billing.Proofs.Snapshot.Reading

set_option autoImplicit false

/-! # Snapshots are lossless

A snapshot that is written as JSON text and read again is the same snapshot
(`Snapshot.ofText_chars`), and the invoice that is brought back from it is the one of which it was
taken (`Snapshot.lossless`). What has to be ruled out are notes of nothing but blanks, which come
back as none, and offsets with seconds, which stamps do not show.
-/

namespace Billing

/-! ## Snapshots keep within the limits of texts -/

namespace Json

variable {α : Type} {limits : Limits} {level : Nat}

theorem fits_ofOption {write : α → Json} (h : ∀ a, fits limits level (write a) = true)
    (o : Option α) : fits limits level (ofOption write o) = true := by
  cases o with
  | none => rfl
  | some a => exact h a

theorem fits_arr_map {write : α → Json} (hdepth : isWithin limits.depth (level + 1) = true)
    (h : ∀ a, fits limits (level + 1) (write a) = true) (as : List α) :
    fits limits level (arr (as.map write)) = true := by
  have helements (as : List α) : elementsFit limits (level + 1) (as.map write) = true := by
    induction as with
    | nil => rfl
    | cons a as ih => rw [List.map_cons, elementsFit, h, ih, Bool.and_self]
  cases as with
  | nil => rfl
  | cons a as => rw [List.map_cons, fits, hdepth, h, helements, Bool.and_self, Bool.and_self]

theorem wholeFits_of_isWord {n : Int} (h : isWord n = true) :
    wholeFits .standard false n = true := by
  have hword : -(twoTo 63 : Int) ≤ n ∧ n < twoTo 63 := by
    rw [isWord, Bool.and_eq_true, decide_eq_true_eq, decide_eq_true_eq] at h
    exact h
  have htwoTo : (twoTo 63 : Int) = 9223372036854775808 := rfl
  -- a word has at most 19 digits and a sign
  have hcount : Digits.count n.natAbs ≤ 19 := by
    refine (Digits.count_le_iff (by decide)).2 ?_
    have htenTo : tenTo 19 = 10000000000000000000 := rfl
    omega
  have hlength : (Digits.intText n).toList.length ≤ 20 := by
    rw [Digits.toList_intText, List.length_append, Digits.chars, List.length_map,
      Digits.length_ofNat]
    split_ifs
    · rw [List.length_singleton]
      omega
    · rw [List.length_nil]
      omega
  have hdigits : isWithin Limits.standard.digits (Digits.intText n).toList.length = true :=
    decide_eq_true (hlength.trans (by decide : 20 ≤ maxNumberLength))
  have hshort : (Limits.standard.words && !isWord n) = false := by
    rw [h]
    rfl
  rw [wholeFits, hshort, hdigits]
  rfl

end Json

open Json

variable {level : Nat}

theorem isWithin_depth {n : Nat} (h : n ≤ 200) : isWithin Limits.standard.depth n = true :=
  decide_eq_true h

theorem MoneyImage.fits_toJson (h : level < 200) (m : MoneyImage) :
    fits .standard level m.toJson = true := by
  simp [MoneyImage.toJson, fits, membersFit, isWithin_depth h]

theorem TaxRateImage.fits_toJson (h : level < 200) (t : TaxRateImage) :
    fits .standard level t.toJson = true := by
  simp [TaxRateImage.toJson, fits, membersFit, isWithin_depth h]

theorem ItemImage.fits_toJson (h : level + 1 < 200) (i : ItemImage) :
    fits .standard level i.toJson = true := by
  have hdepth := isWithin_depth (Nat.le_of_lt h)
  have hmoney := MoneyImage.fits_toJson h
  have hrate := TaxRateImage.fits_toJson h
  simp [ItemImage.toJson, fits, membersFit, hdepth, hmoney, hrate, fits_ofOption hmoney]

theorem TotalsImage.fits_toJson (h : level + 1 < 200) (t : TotalsImage) :
    fits .standard level t.toJson = true := by
  have hdepth := isWithin_depth (Nat.le_of_lt h)
  simp [TotalsImage.toJson, fits, membersFit, hdepth, MoneyImage.fits_toJson h]

namespace Snapshot

theorem fits_toJson {s : Snapshot} (word : isWord s.version = true) :
    fits .standard 0 s.toJson = true := by
  have htext (o : Option String) : fits .standard 1 (ofOption str o) = true :=
    fits_ofOption (fun _ => rfl) o
  have hfrequency : fits .standard 1 (ofOption (str ·.name) s.frequency) = true :=
    fits_ofOption (fun _ => rfl) s.frequency
  have hmoment (o : Option Moment) : fits .standard 1 (ofOption Moment.toJson o) = true :=
    fits_ofOption (fun _ => rfl) o
  have htotals : fits .standard 1 (ofOption TotalsImage.toJson s.totals) = true :=
    fits_ofOption (TotalsImage.fits_toJson (by decide)) s.totals
  have hpaid : fits .standard 1 (ofOption MoneyImage.toJson s.paidAmount) = true :=
    fits_ofOption (MoneyImage.fits_toJson (by decide)) s.paidAmount
  have hitems : fits .standard 1 (arr (s.items.map ItemImage.toJson)) = true :=
    fits_arr_map (isWithin_depth (by decide)) (ItemImage.fits_toJson (by decide)) s.items
  have hversion := wholeFits_of_isWord word
  simp only [toJson, fits, Nat.zero_add, isWithin_depth (by decide : 1 ≤ 200), membersFit, htext,
    hfrequency, hmoment, htotals, hpaid, hitems, hversion, Bool.and_self]

/-- A snapshot whose stamps show all of its moments is read back from its text. -/
theorem ofText_chars {s : Snapshot} (word : isWord s.version = true) (h : s.stamped = s)
    (indent : Option Nat) : ofText (String.ofList (s.toJson.chars indent)) = .ok s := by
  rw [ofText, parse?_chars .standard (fits_toJson word) indent]
  show Snapshot.ofJson s.toJson = .ok s
  rw [ofJson_toJson, h]

/-- The snapshot of an invoice shows the moments of the invoice. -/
theorem stamped_of_settled {inv : Invoice} {s : Snapshot} (h : Snapshot.of inv = .ok s)
    (hsettled : inv.Settled Moment.stamped) : s.stamped = s := by
  obtain ⟨images, totals, -, -, rfl⟩ := of_eq_ok_iff.1 h
  obtain ⟨-, hfin, hsent, hpaid, hvoid⟩ := Invoice.settled_iff.1 hsettled
  simp only [stamped, ofImages, hfin, hsent, hpaid, hvoid]

open Invoice

/-- An invoice that has been made and changed in any way is brought back as it was, at any version
of 64 bits, from the text of its snapshot. It must be computable what is left to pay; its notes
must not be all blank, and the offsets of its moments must be whole minutes. -/
theorem lossless {f : InvoiceFields} {today : Date} {fresh : Fresh} {new : Invoice}
    (created : create f today fresh = .ok new) (steps : List Step) (version : Int)
    (word : isWord version = true) (computable : ∃ m, (new.run steps).balanceDue = .ok m)
    (notes : (new.run steps).notes ≠ some "")
    (minutes : ∀ time ∈ (new.run steps).moments, ∀ m ∈ time, m.HasWholeMinutes) :
    ∃ s, Snapshot.of ((new.run steps).atVersion version) = .ok s ∧
      (∀ indent, ofText (String.ofList (s.toJson.chars indent)) = .ok s) ∧
      ∀ again, s.toInvoice again = .ok ((new.run steps).atVersion version) := by
  have hproper := ((proper_of_restore (create_eq_ok created).1).run steps).atVersion version
  have hsettled : ((new.run steps).atVersion version).Settled Moment.stamped :=
    hproper.settled notes fun time htime m hm =>
      Moment.stamped_of_wholeMinutes (minutes time htime m hm)
  obtain ⟨m, hm⟩ := computable
  have hbalance : ((new.run steps).atVersion version).balanceDue = .ok m := hm
  obtain ⟨s, hs⟩ := exists_of_balance hbalance
  have hstamped := stamped_of_settled hs hsettled
  refine ⟨s, hs, fun indent => ofText_chars ?_ hstamped indent, fun again => ?_⟩
  · rw [(id_number_version_of hs).2.2]
    exact word
  · calc s.toInvoice again = s.stamped.toInvoice again := by rw [hstamped]
      _ = .ok (((new.run steps).atVersion version).reread Moment.stamped) :=
          toInvoice_of hs hproper.oneCurrency Moment.stamped again
      _ = .ok ((new.run steps).atVersion version) := by rw [hsettled]

end Snapshot

/-- The sample invoice, finalized abroad and saved once, is brought back with the offset at which
it was finalized. -/
theorem Invoice.lossless_sample :
    ∃ s, Snapshot.of ((sample.run sampleFinalizedAbroad).atVersion 1) = .ok s ∧
      Snapshot.ofText s.toJson.pretty = .ok s ∧
      s.toInvoice (.following 0) = .ok ((sample.run sampleFinalizedAbroad).atVersion 1) ∧
      (sample.run sampleFinalizedAbroad).finalizedAt = some sampleAbroad := by
  have hcomputable : ∃ m, (sample.run sampleFinalizedAbroad).balanceDue = .ok m :=
    ⟨⟨⟨false, 1000, by decide⟩, .usd⟩, by decide +kernel⟩
  obtain ⟨s, hs, htext, hback⟩ :=
    Snapshot.lossless create_sample sampleFinalizedAbroad 1 (by decide) hcomputable
      (by decide +kernel) (by decide +kernel)
  exact ⟨s, hs, htext (some 0), hback _, by decide +kernel⟩

end Billing
