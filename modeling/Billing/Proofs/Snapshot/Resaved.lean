import Billing.Proofs.Snapshot.Reading

set_option autoImplicit false

/-! # Snapshots that are loaded and taken again

Loading a snapshot strips its texts, fills in what is missing and reads its numbers; a snapshot that
is taken of the loaded invoice (`Snapshot.resaved`) shows all of this. Doing it once more changes
nothing but notes that were all blank: they are stripped to empty notes, which count as none the
next time (`Snapshot.resaved_resaved`).
-/

namespace Billing

namespace Invoice

/-- Stripping notes twice makes a difference exactly when the first time leaves them empty. -/
theorem notesOf_notesOf_eq_iff {notes : Option String} :
    notesOf (notesOf notes) = notesOf notes ↔ notesOf notes ≠ some "" := by
  constructor
  · intro h hempty
    rw [hempty] at h
    cases h
  · exact notesOf_notesOf

/-- Notes are left empty if they are all blank, but not empty from the start. -/
theorem notesOf_eq_empty_iff {notes : Option String} :
    notesOf notes = some "" ↔
      ∃ text, notes = some text ∧ Text.isBlankText text = true ∧ text ≠ "" := by
  cases notes with
  | none => simp [notesOf]
  | some text =>
      by_cases hempty : text = ""
      · simp [notesOf, hempty]
      · simp [notesOf, hempty, Text.isBlankText]

end Invoice

namespace Snapshot

open Invoice

variable {inv : Invoice} {s first : Snapshot} {fresh : Fresh}

/-- The snapshot that is taken of the invoice of a snapshot. -/
def resaved (s : Snapshot) (fresh : Fresh) : Except Failure Snapshot := do
  Snapshot.of (← s.toInvoice fresh)

/-- A snapshot says nothing about the notes but the notes. -/
theorem of_notes (h : Snapshot.of inv = .ok s) (notes : Option String) :
    Snapshot.of { inv with notes } = .ok { s with notes } := by
  obtain ⟨items, totals, hitems, htotals, rfl⟩ := of_eq_ok_iff.1 h
  exact of_eq_ok_iff.2 ⟨items, totals, hitems, htotals, rfl⟩

/-- A snapshot that has been taken of an invoice is taken again as it is, but with its notes
stripped once more. -/
theorem resaved_of (h : Snapshot.of inv = .ok s) (hproper : inv.Proper) (fresh : Fresh) :
    s.resaved fresh = .ok { s with notes := notesOf s.notes } := by
  have hloaded : s.toInvoice fresh = .ok { inv with notes := notesOf inv.notes } := by
    -- nothing is taken from the moments
    have hread := toInvoice_of h hproper.oneCurrency (fun m => m) fresh
    simp only [reread, Option.map_id'] at hread
    exact hread
  have hnotes : inv.notes = s.notes := by
    obtain ⟨items, totals, -, -, rfl⟩ := of_eq_ok_iff.1 h
    rfl
  rw [resaved, hloaded, Except.ok_bind, of_notes h, hnotes]

/-- A snapshot of a loaded invoice is one of an invoice that has been made properly, from the notes
of the snapshot that was loaded. -/
theorem exists_of_resaved (h : s.resaved fresh = .ok first) :
    ∃ inv, Snapshot.of inv = .ok first ∧ inv.Proper ∧ first.notes = notesOf s.notes := by
  obtain ⟨inv, hload, hfirst⟩ := Except.bind_eq_ok_iff.1 h
  obtain ⟨items, hitems, hload⟩ := Except.bind_eq_ok_iff.1 hload
  obtain ⟨paid, hpaid, hload⟩ := Except.bind_eq_ok_iff.1 hload
  refine ⟨inv, hfirst, proper_of_restore hload, ?_⟩
  obtain ⟨_, _, _, _, _, _, _, _, -, -, -, -, -, -, -, -, -, -, rfl⟩ := restore_eq_ok_iff.1 hload
  obtain ⟨_, _, -, -, rfl⟩ := of_eq_ok_iff.1 hfirst
  rfl

/-- Whatever a snapshot holds, once it has been loaded and taken again, doing so a second time
succeeds and changes nothing but the notes, and these only if they were all blank without being
empty. From then on nothing changes any more. -/
theorem resaved_resaved (h : s.resaved fresh = .ok first) (again : Fresh) :
    ∃ second, first.resaved again = .ok second ∧
      second = { first with notes := second.notes } ∧
      (second = first ↔ ∀ text, s.notes = some text → Text.isBlankText text = true → text = "") ∧
      ∀ later, second.resaved later = .ok second := by
  obtain ⟨inv, hfirst, hproper, hnotes⟩ := exists_of_resaved h
  have hsecond := resaved_of hfirst hproper again
  refine ⟨_, hsecond, rfl, ?_, fun later => ?_⟩
  · -- the notes are all that can differ
    have hsame : { first with notes := notesOf first.notes } = first ↔
        notesOf first.notes = first.notes := by
      cases first
      simp
    rw [hsame, hnotes, notesOf_notesOf_eq_iff, Ne, notesOf_eq_empty_iff]
    push Not
    rfl
  · obtain ⟨inv', hsecond', hproper', -⟩ := exists_of_resaved hsecond
    rw [resaved_of hsecond' hproper' later]
    show Except.ok { first with notes := notesOf (notesOf first.notes) } = _
    rw [hnotes, notesOf_notesOf_notesOf]

/-! ## Two snapshots to look at -/

/-- A snapshot written by hand: there are blanks around its texts, its identifiers are missing, and
its numbers are written in unusual ways. -/
def sampleDraft : Snapshot where
  id := ""
  number := "INV-042"
  clientId := " client "
  projectId := some " "
  issuedBy := "\tissuer\n"
  type := .recurring
  status := .partiallyPaid
  currency := " USD "
  dueDate := Invoice.sample.dueDate
  frequency := some .monthly
  notes := some " Thanks "
  items := [⟨"", " Work ", "+2_0e-1 ", ⟨"5", "USD "⟩, ⟨" 1E1", " VAT"⟩, none⟩]
  totals := none
  finalizedAt := none
  sentAt := none
  paidAt := none
  voidedAt := none
  paidAmount := some ⟨"-0", "USD"⟩
  voidReason := some " "
  version := 7

/-- The first time, all of this is put in order; the second time, nothing is left to do. -/
theorem resaved_resaved_sample :
    ∃ first, sampleDraft.resaved (.following 0) = .ok first ∧ first ≠ sampleDraft ∧
      first.resaved (.following 1) = .ok first := by
  have hsome : (sampleDraft.resaved (.following 0)).toOption.isSome = true := by decide +kernel
  obtain ⟨first, hfirst⟩ := Option.isSome_iff_exists.1 hsome
  have hfirst := Except.toOption_eq_some_iff.1 hfirst
  obtain ⟨second, hsecond, -, hsame, -⟩ := resaved_resaved hfirst (.following 1)
  obtain rfl : second = first := hsame.2 (by decide +kernel)
  refine ⟨second, hfirst, fun heq => ?_, hsecond⟩
  -- the identifier was missing
  have hid : ((sampleDraft.resaved (.following 0)).map Snapshot.id).toOption ≠ some "" := by
    decide +kernel
  rw [hfirst, heq] at hid
  exact hid rfl

/-- Notes of a single blank are empty in the first snapshot and missing in the second. -/
theorem blank_notes_change_twice :
    ∃ first second, { sampleDraft with notes := some " " }.resaved (.following 0) = .ok first ∧
      first.resaved (.following 1) = .ok second ∧ first.notes = some "" ∧ second.notes = none ∧
      second ≠ first := by
  have hsome : ({ sampleDraft with notes := some " " }.resaved (.following 0)).toOption.isSome =
      true := by decide +kernel
  obtain ⟨first, hfirst⟩ := Option.isSome_iff_exists.1 hsome
  have hfirst := Except.toOption_eq_some_iff.1 hfirst
  obtain ⟨inv, hof, hproper, hnotes⟩ := exists_of_resaved hfirst
  have hempty : first.notes = some "" := hnotes.trans (by decide +kernel)
  refine ⟨first, _, hfirst, resaved_of hof hproper (.following 1), hempty, ?_, fun heq => ?_⟩
  · rw [hempty]
    rfl
  · have hsame := congrArg Snapshot.notes heq
    rw [hempty] at hsame
    cases hsame

end Snapshot

end Billing
