import Billing.Proofs.Store.Loaded

set_option autoImplicit false

/-! # What tables keep of the moments of an invoice

Tables give an invoice back as it was saved, with its items and all that has happened to it. Only
its moments are another matter: their offsets are not stored, and they are read as universal time.
So the instants are kept exactly when all moments were given in universal time
(`Tables.reload_after_save`).
-/

namespace Billing

/-- What a clock shows is read as another instant, unless the clock shows universal time. -/
theorem Moment.instant_atUniversal (m : Moment) :
    m.atUniversal.instant = m.instant + m.offset.getD 0 := by
  simp [instant, atUniversal]

namespace Invoice

/-- The same has happened to two invoices at the same instants. -/
def SameInstants (inv inv' : Invoice) : Prop :=
  inv.moments.map (Option.map Moment.instant) = inv'.moments.map (Option.map Moment.instant)

instance (inv inv' : Invoice) : Decidable (inv.SameInstants inv') :=
  inferInstanceAs (Decidable (_ = _))

theorem sameInstants_atUniversal_iff (inv : Invoice) :
    inv.SameInstants (inv.reread .atUniversal) ↔
      ∀ time ∈ inv.moments, ∀ m ∈ time, m.offset.getD 0 = 0 := by
  rw [SameInstants, moments_reread, List.map_map, List.map_inj_left]
  refine forall₂_congr fun time _ => ?_
  cases time with
  | none => simp
  | some m =>
      have hinstant := m.instant_atUniversal
      simp only [Function.comp_apply, Option.map_some, Option.some.injEq, Option.mem_def,
        forall_eq']
      omega

end Invoice

namespace Tables

open Invoice

/-- An invoice that has been made and changed in any way, and saved in tables, is found again with
its number, its state, its payments, the reason for which it is void, and its items in their
order. It is found with the instants of its moments exactly if no clock that was read showed
another time than universal time. -/
theorem reload_after_save {f : InvoiceFields} {today : Date} {fresh : Fresh} {new : Invoice}
    (created : create f today fresh = .ok new) (steps : List Step) (version : Int)
    {tables after : Tables} {saved : Invoice} (reached : keeping.Reached tables)
    (success : (save ((new.run steps).atVersion version)).on tables = (.ok saved, after)) :
    ∃ back, (repository.findById new.id.text).on after = (.ok (some back), after) ∧
      back.id = new.id ∧ back.number = (new.run steps).number ∧
      back.status = (new.run steps).status ∧ back.paidAmount = (new.run steps).paidAmount ∧
      back.voidReason = (new.run steps).voidReason ∧ back.items = (new.run steps).items ∧
      ((new.run steps).SameInstants back ↔
        ∀ time ∈ (new.run steps).moments, ∀ m ∈ time, m.offset.getD 0 = 0) := by
  have hid : (new.run steps).id = new.id := (id_version_run new steps).1
  have hcurrency := ((proper_of_restore (create_eq_ok created).1).run steps).oneCurrency
  have hsaved := lawful.save (lawful.sound reached) success
  obtain ⟨st, hst, -, hread⟩ := hsaved.stored
  have hread := hread ⟨hcurrency.items, hcurrency.paid⟩
  have hfound := lawful.reads_of_read hsaved.sound hst hread
  rw [hsaved.counted] at hfound
  refine ⟨((new.run steps).atVersion (version + 1)).reread .atUniversal, ?_, hid, rfl, rfl, rfl,
    rfl, rfl, ?_⟩
  · rw [← hid]
    exact hfound
  · -- the version does not come into it
    exact sameInstants_atUniversal_iff (new.run steps)

end Tables

namespace Invoice

/-- The sample invoice is found again, but at another instant than that at which it was
finalized. -/
theorem instants_shifted :
    ∃ back,
      (Tables.repository.findById sample.id.text).on
          ((Tables.save (sample.run sampleFinalizedAbroad)).on .empty).2 =
        (.ok (some back), ((Tables.save (sample.run sampleFinalizedAbroad)).on .empty).2) ∧
      ¬ (sample.run sampleFinalizedAbroad).SameInstants back :=
  ⟨((sample.run sampleFinalizedAbroad).atVersion 1).reread .atUniversal, by decide +kernel,
    by decide +kernel⟩

theorem reload_after_save_sample :
    ∃ back after,
      (Tables.repository.findById sample.id.text).on after = (.ok (some back), after) ∧
        back.items = (sample.run sampleSending).items ∧
        (sample.run sampleSending).SameInstants back := by
  have hreached : Tables.keeping.Reached .empty := .empty
  have hsave : (Tables.save ((sample.run sampleSending).atVersion 0)).on .empty =
      (.ok ((sample.run sampleSending).atVersion 1),
        ((Tables.save (sample.run sampleSending)).on .empty).2) := by decide +kernel
  obtain ⟨back, hback, -, -, -, -, -, hitems, hinstants⟩ :=
    Tables.reload_after_save create_sample sampleSending 0 hreached hsave
  exact ⟨back, _, hback, hitems, hinstants.2 (by decide +kernel)⟩

end Invoice

end Billing
