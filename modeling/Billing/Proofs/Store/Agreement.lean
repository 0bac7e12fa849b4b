import Billing.Proofs.Invoice.Run
import Billing.Proofs.Store.MemoryShelf
import Billing.Proofs.Store.TablesShelf

set_option autoImplicit false

/-! # Both stores answer alike

A store in memory and tables that are empty at first answer every list of calls alike
(`stores_agree`), if what is saved can be stored and its next version fits into 64 bits. At the last
version of 64 bits they differ (`stores_differ_at_limit`).
-/

namespace Billing

/-- The store in memory and the tables cannot be told apart by calls. They give the same invoices in
the same order, the same versions, and the same failures. -/
theorem stores_agree (calls : List StoreCall)
    (h : ∀ inv, .save inv ∈ calls → inv.Storable ∧ inv.version ≠ 2 ^ 63 - 1) :
    MemoryStore.repository.replies .empty calls = Tables.repository.replies .empty calls := by
  have hcalls : ∀ c ∈ calls, c.Admissible := by
    intro c hc
    cases c with
    | save inv => exact h inv hc
    | _ => trivial
  calc MemoryStore.repository.replies .empty calls
      = Shelf.repository.replies .empty calls :=
        MemoryStore.shows.replies .nil Shelf.orderly_empty hcalls
    _ = Tables.repository.replies .empty calls :=
        (Tables.shows.replies Tables.shown_empty Shelf.orderly_empty hcalls).symm

namespace Invoice

/-- An invoice is saved, and saved again without being loaded; then it is looked up and deleted. -/
def sampleCalls : List StoreCall :=
  [.save (sample.run sampleSending), .save (sample.run sampleSending), .findById sample.id.text,
    .findByStatus .sent, .findOverdue ⟨2030, 2, 1, by decide⟩, .delete sample.id.text,
    .existsNumber "INV-000001"]

theorem storable_sampleSent : (sample.run sampleSending).Storable where
  items := by decide +kernel
  balance := ⟨⟨⟨false, 1000, by decide⟩, .usd⟩, by decide +kernel⟩
  times := by decide +kernel
  version := by decide +kernel

theorem stores_agree_sample :
    (sample.run sampleSending).Storable ∧ (sample.run sampleSending).version ≠ 2 ^ 63 - 1 ∧
      MemoryStore.repository.replies .empty sampleCalls =
        Tables.repository.replies .empty sampleCalls := by
  have hlimit : (sample.run sampleSending).version ≠ 2 ^ 63 - 1 := by decide +kernel
  refine ⟨storable_sampleSent, hlimit, stores_agree sampleCalls fun inv hinv => ?_⟩
  have hsaved : inv = sample.run sampleSending := by
    simpa [sampleCalls] using hinv
  rw [hsaved]
  exact ⟨storable_sampleSent, hlimit⟩

/-- A draft at the last version that fits into 64 bits. -/
def sampleAtLimit : Invoice := { sample with version := 2 ^ 63 - 1 }

/-- At the last version of 64 bits the store in memory finds a conflict, but the tables cannot hold
the next version. -/
theorem stores_differ_at_limit :
    sampleAtLimit.Storable ∧
      MemoryStore.repository.replies .empty [.save sampleAtLimit] ≠
        Tables.repository.replies .empty [.save sampleAtLimit] := by
  constructor
  · exact ⟨List.nodup_nil, ⟨.zero .usd, by decide +kernel⟩, by simp [sampleAtLimit, sample],
      by decide⟩
  · have hmemory : (MemoryStore.save sampleAtLimit).on .empty =
        (.error (.conflict sampleAtLimit.id.text (2 ^ 63 - 1) none), .empty) := by
      rw [MemoryStore.on_save]
      exact if_pos (by decide)
    have htables : (Tables.save sampleAtLimit).on .empty = (.error .versionTooLarge, .empty) := by
      rw [Tables.on_save]
      exact (if_neg (by decide)).trans (if_pos (by decide))
    intro heq
    have hreply : StoreReply.saved ((MemoryStore.save sampleAtLimit).on .empty).1 =
        .saved ((Tables.save sampleAtLimit).on .empty).1 := (List.cons.inj heq).1
    rw [hmemory, htables] at hreply
    cases hreply

end Invoice

end Billing
